/-
The CRUD API: the target is split at slashes, its first segment is dropped, and
method and remaining segments select an operation on the file system.
-/
import SwanServer.FileSystem
import SwanServer.RequestHandlerDelegate

namespace SwanServer

/-- `class ApiHandler`. -/
structure ApiHandler (σ : Type) where
  location : Str
  dataPath : Str
  fs : FileSystem σ

/-- `split`: the non-empty segments of the target without the first one.
Erasing the first of no segments is undefined. -/
def split (s : Str) (delim : Char) : Except Fault (List Str) :=
  match (getlines delim s).filter (· ≠ []) with
  | [] => .error .undefinedBehaviour
  | _ :: result => .ok result

/-- `uri[i]`, undefined past the end. -/
def atIndex (uri : List Str) (i : Nat) : Except Fault Str :=
  match uri[i]? with
  | some segment => .ok segment
  | none => .error .undefinedBehaviour

/-- `extractEntity`. -/
def extractEntity (uri : List Str) : Except Fault Str := atIndex uri 0

/-- `extractFileName`. -/
def extractFileName (uri : List Str) : Except Fault Str := atIndex uri 1

/-- `is_number`. -/
def isNumber (s : Str) : Bool := !s.isEmpty && s.all Char.isDigit

/-- `isFileNumber`. -/
def isFileNumber (uri : List Str) : Bool :=
  match uri with
  | [_, fileNo] => isNumber fileNo
  | _ => true

namespace ApiHandler

variable {σ : Type} (handler : ApiHandler σ)

/-- A handler's answer: its verdict and the response it set. -/
def respond (verdict : Bool) (status : Status) (body : Str)
    (httpResponse : Response) : Bool × Response :=
  (verdict, setResponse status "text/plain".toList body httpResponse)

/-- The body of an answer that carries an id. -/
def idResponse (id : Str) : Str := "\x7b\"id\": ".toList ++ id ++ "\x7d".toList

theorem idResponse_injective : Function.Injective idResponse := by
  intro first second heq
  exact List.append_cancel_left (List.append_cancel_right heq)

/-- `ApiHandler::handlePost`. -/
def handlePost (uri : List Str) (httpRequest : Request) (httpResponse : Response) :
    Act σ (Bool × Response) := do
  if uri.length ≠ 1 then
    return respond false .badRequest
      "Not a valid API request target for POST\n".toList httpResponse
  let dirPath := handler.dataPath ++ "/".toList ++ (← Act.ofExcept (extractEntity uri))
  let postBody := httpRequest.body
  let createdFileId ← handler.fs.genIdAndWriteFile dirPath postBody
  if createdFileId = -1 then
    return respond false .internalServerError "Unable to generate ID.".toList
      httpResponse
  else
    return respond true .ok (idResponse (toStringInt createdFileId)) httpResponse

/-- `ApiHandler::handleGet`. -/
def handleGet (uri : List Str) (httpResponse : Response) :
    Act σ (Bool × Response) := do
  let filePath := handler.dataPath ++ "/".toList ++ (← Act.ofExcept (extractEntity uri))
  if (← handler.fs.pathExists filePath) = false then
    return respond false .badRequest "Invalid entity requested\n".toList httpResponse
  if uri.length = 1 then
    let jsonList ← handler.fs.getFileList filePath
    return respond true .ok jsonList httpResponse
  else if uri.length = 2 then
    let fileName := filePath ++ "/".toList ++ (← Act.ofExcept (extractFileName uri))
    match ← handler.fs.readFile fileName with
    | some fileContents => return respond true .ok fileContents httpResponse
    | none =>
        return respond false .badRequest "Requested ID does not exist\n".toList
          httpResponse
  else
    return respond false .badRequest "Not a valid API request target for GET\n".toList
      httpResponse

/-- `ApiHandler::handleDelete`. -/
def handleDelete (uri : List Str) (httpResponse : Response) :
    Act σ (Bool × Response) := do
  if uri.length ≠ 2 then
    return respond false .badRequest
      "Not a valid API request target for DELETE\n".toList httpResponse
  let fileName := handler.dataPath ++ "/".toList ++
    (← Act.ofExcept (extractEntity uri)) ++ "/".toList ++
    (← Act.ofExcept (extractFileName uri))
  if (← handler.fs.isRegularFile fileName) = false then
    return respond false .badRequest "Requested ID does not exist.\n".toList httpResponse
  else if (← handler.fs.remove fileName) = false then
    return respond false .badRequest "Could not delete requested ID\n".toList
      httpResponse
  else
    return respond true .ok "Successfully deleted ID\n".toList httpResponse

/-- `ApiHandler::handlePut`. -/
def handlePut (uri : List Str) (httpRequest : Request) (httpResponse : Response) :
    Act σ (Bool × Response) := do
  if uri.length ≠ 2 then
    return respond false .badRequest
      "Not a valid API request target for PUT\n".toList httpResponse
  let filePath := handler.dataPath ++ "/".toList ++
    (← Act.ofExcept (extractEntity uri)) ++ "/".toList ++
    (← Act.ofExcept (extractFileName uri))
  let postBody := httpRequest.body
  if ← handler.fs.writeFile filePath postBody then
    return respond true .ok (idResponse (← Act.ofExcept (extractFileName uri)))
      httpResponse
  else
    return respond false .internalServerError "Unable to write to ID.".toList
      httpResponse

/-- The operation that `handle_request` selects by method. -/
def dispatch (uri : List Str) (httpRequest : Request) (httpResponse : Response) :
    Act σ (Bool × Response) :=
  if httpRequest.method = "POST".toList then
    handler.handlePost uri httpRequest httpResponse
  else if httpRequest.method = "GET".toList then
    handler.handleGet uri httpResponse
  else if httpRequest.method = "PUT".toList then
    handler.handlePut uri httpRequest httpResponse
  else if httpRequest.method = "DELETE".toList then
    handler.handleDelete uri httpResponse
  else
    return respond false .badRequest "Invalid HTTP method\n".toList httpResponse

/-- `ApiHandler::handle_request`. -/
def handleRequest : HandleRequest σ := fun httpRequest httpResponse => do
  let target := cStr httpRequest.target
  let uri ← Act.ofExcept (split target '/')
  if isFileNumber uri = false then
    return respond false .badRequest "Requested file must be a number\n".toList
      httpResponse
  handler.dispatch uri httpRequest httpResponse

theorem handleRequest_of_split_error {httpRequest : Request}
    (httpResponse : Response) {fault : Fault}
    (hsplit : split (cStr httpRequest.target) '/' = .error fault) :
    handler.handleRequest httpRequest httpResponse = throw fault := by
  rw [handleRequest, hsplit]
  rfl

theorem handleRequest_of_not_isFileNumber {httpRequest : Request}
    (httpResponse : Response) {uri : List Str}
    (hsplit : split (cStr httpRequest.target) '/' = .ok uri)
    (hnumber : isFileNumber uri = false) :
    handler.handleRequest httpRequest httpResponse =
      pure (respond false .badRequest "Requested file must be a number\n".toList
        httpResponse) := by
  rw [handleRequest, hsplit, Act.ofExcept_ok, pure_bind, if_pos hnumber]

/-- Past the checks the method selects the operation. -/
theorem handleRequest_of_isFileNumber {httpRequest : Request}
    (httpResponse : Response) {uri : List Str}
    (hsplit : split (cStr httpRequest.target) '/' = .ok uri)
    (hnumber : isFileNumber uri = true) :
    handler.handleRequest httpRequest httpResponse =
      handler.dispatch uri httpRequest httpResponse := by
  rw [handleRequest, hsplit, Act.ofExcept_ok, pure_bind,
    if_neg (by rw [hnumber]; decide)]

section Dispatch

variable {httpRequest : Request} (uri : List Str) (httpResponse : Response)

theorem dispatch_post (hmethod : httpRequest.method = "POST".toList) :
    handler.dispatch uri httpRequest httpResponse =
      handler.handlePost uri httpRequest httpResponse := by
  rw [dispatch, if_pos hmethod]

theorem dispatch_get (hmethod : httpRequest.method = "GET".toList) :
    handler.dispatch uri httpRequest httpResponse =
      handler.handleGet uri httpResponse := by
  rw [dispatch, hmethod, if_neg (by decide), if_pos rfl]

theorem dispatch_put (hmethod : httpRequest.method = "PUT".toList) :
    handler.dispatch uri httpRequest httpResponse =
      handler.handlePut uri httpRequest httpResponse := by
  rw [dispatch, hmethod, if_neg (by decide), if_neg (by decide), if_pos rfl]

theorem dispatch_delete (hmethod : httpRequest.method = "DELETE".toList) :
    handler.dispatch uri httpRequest httpResponse =
      handler.handleDelete uri httpResponse := by
  rw [dispatch, hmethod, if_neg (by decide), if_neg (by decide),
    if_neg (by decide), if_pos rfl]

theorem dispatch_other (hpost : httpRequest.method ≠ "POST".toList)
    (hget : httpRequest.method ≠ "GET".toList)
    (hput : httpRequest.method ≠ "PUT".toList)
    (hdelete : httpRequest.method ≠ "DELETE".toList) :
    handler.dispatch uri httpRequest httpResponse =
      pure (respond false .badRequest "Invalid HTTP method\n".toList
        httpResponse) := by
  rw [dispatch, if_neg hpost, if_neg hget, if_neg hput, if_neg hdelete]

end Dispatch

/-- The path of an entity directory. -/
def entityPath (entity : Str) : Str := handler.dataPath ++ "/".toList ++ entity

/-- The path of a file of an entity. -/
def filePath (entity fileName : Str) : Str :=
  handler.entityPath entity ++ "/".toList ++ fileName

theorem entityPath_eq (entity : Str) :
    handler.entityPath entity = handler.dataPath ++ '/' :: entity := by
  simp only [entityPath, List.append_assoc]
  rfl

theorem filePath_eq (entity fileName : Str) :
    handler.filePath entity fileName =
      handler.dataPath ++ '/' :: entity ++ '/' :: fileName := by
  rw [filePath, entityPath_eq, List.append_assoc]
  rfl

theorem handlePost_entity (entity : Str) (httpRequest : Request)
    (httpResponse : Response) :
    handler.handlePost [entity] httpRequest httpResponse =
      handler.fs.genIdAndWriteFile (handler.entityPath entity) httpRequest.body >>=
        fun id =>
          if id = -1 then
            pure (respond false .internalServerError "Unable to generate ID.".toList
              httpResponse)
          else
            pure (respond true .ok (idResponse (toStringInt id)) httpResponse) := by
  rw [handlePost, if_neg (by simp)]
  rfl

theorem handlePost_of_length_ne {uri : List Str} (huri : uri.length ≠ 1)
    (httpRequest : Request) (httpResponse : Response) :
    handler.handlePost uri httpRequest httpResponse =
      pure (respond false .badRequest
        "Not a valid API request target for POST\n".toList httpResponse) := by
  rw [handlePost, if_pos huri]

theorem handleGet_nil (httpResponse : Response) :
    handler.handleGet [] httpResponse = throw .undefinedBehaviour := rfl

theorem handleGet_entity (entity : Str) (httpResponse : Response) :
    handler.handleGet [entity] httpResponse =
      handler.fs.pathExists (handler.entityPath entity) >>= fun present =>
        if present = false then
          pure (respond false .badRequest "Invalid entity requested\n".toList
            httpResponse)
        else
          handler.fs.getFileList (handler.entityPath entity) >>= fun jsonList =>
            pure (respond true .ok jsonList httpResponse) := rfl

theorem handleGet_file (entity fileName : Str) (httpResponse : Response) :
    handler.handleGet [entity, fileName] httpResponse =
      handler.fs.pathExists (handler.entityPath entity) >>= fun present =>
        if present = false then
          pure (respond false .badRequest "Invalid entity requested\n".toList
            httpResponse)
        else
          handler.fs.readFile (handler.filePath entity fileName) >>= fun file =>
            match file with
            | some fileContents => pure (respond true .ok fileContents httpResponse)
            | none =>
                pure (respond false .badRequest
                  "Requested ID does not exist\n".toList httpResponse) := rfl

theorem handleGet_deep (entity fileName next : Str) (rest : List Str)
    (httpResponse : Response) :
    handler.handleGet (entity :: fileName :: next :: rest) httpResponse =
      handler.fs.pathExists (handler.entityPath entity) >>= fun present =>
        if present = false then
          pure (respond false .badRequest "Invalid entity requested\n".toList
            httpResponse)
        else
          pure (respond false .badRequest
            "Not a valid API request target for GET\n".toList httpResponse) := rfl

theorem handleDelete_file (entity fileName : Str) (httpResponse : Response) :
    handler.handleDelete [entity, fileName] httpResponse =
      handler.fs.isRegularFile (handler.filePath entity fileName) >>= fun regular =>
        if regular = false then
          pure (respond false .badRequest "Requested ID does not exist.\n".toList
            httpResponse)
        else
          handler.fs.remove (handler.filePath entity fileName) >>= fun removed =>
            if removed = false then
              pure (respond false .badRequest
                "Could not delete requested ID\n".toList httpResponse)
            else
              pure (respond true .ok "Successfully deleted ID\n".toList
                httpResponse) := rfl

theorem handleDelete_of_length_ne {uri : List Str} (huri : uri.length ≠ 2)
    (httpResponse : Response) :
    handler.handleDelete uri httpResponse =
      pure (respond false .badRequest
        "Not a valid API request target for DELETE\n".toList httpResponse) := by
  rw [handleDelete, if_pos huri]

theorem handlePut_file (entity fileName : Str) (httpRequest : Request)
    (httpResponse : Response) :
    handler.handlePut [entity, fileName] httpRequest httpResponse =
      handler.fs.writeFile (handler.filePath entity fileName) httpRequest.body >>=
        fun success =>
          if success then
            pure (respond true .ok (idResponse fileName) httpResponse)
          else
            pure (respond false .internalServerError
              "Unable to write to ID.".toList httpResponse) := rfl

theorem handlePut_of_length_ne {uri : List Str} (huri : uri.length ≠ 2)
    (httpRequest : Request) (httpResponse : Response) :
    handler.handlePut uri httpRequest httpResponse =
      pure (respond false .badRequest
        "Not a valid API request target for PUT\n".toList httpResponse) := by
  rw [handlePut, if_pos huri]

end ApiHandler

theorem split_slash (s : Str) :
    split s '/' = match segments s with
      | [] => .error .undefinedBehaviour
      | _ :: uri => .ok uri := by
  rw [split, getlines_filter_ne_nil]
  rfl

theorem mem_of_split {s : Str} {uri : List Str} (hsplit : split s '/' = .ok uri)
    {segment : Str} (hsegment : segment ∈ uri) :
    segment ≠ [] ∧ '/' ∉ segment ∧ ∀ c ∈ segment, c ∈ s := by
  rw [split_slash] at hsplit
  split at hsplit
  · contradiction
  · next first rest hsegments =>
      cases hsplit
      exact mem_segments (hsegments ▸ List.mem_cons_of_mem first hsegment)

/-- What stands between slashes is a name without one. -/
theorem forall_mem_split {s : Str} {uri : List Str} (hsplit : split s '/' = .ok uri) :
    ∀ segment ∈ uri, segment ≠ [] ∧ '/' ∉ segment := by
  intro segment hsegment
  have hmem := mem_of_split hsplit hsegment
  exact ⟨hmem.1, hmem.2.1⟩

theorem isNumber_iff (s : Str) : isNumber s = true ↔ IsDigits s := by
  cases s <;> simp [isNumber, IsDigits]

theorem isDigits_of_isFileNumber {entity fileName : Str}
    (hnumber : isFileNumber [entity, fileName] = true) : IsDigits fileName :=
  (isNumber_iff fileName).mp hnumber

end SwanServer
