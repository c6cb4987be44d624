/-
The API over the real file system refines the store: it answers as the store
does, and the data directory always holds exactly the image of the store.
-/
import SwanServer.CrudImage

namespace SwanServer

open FileTree LexicalPath

theorem split_of_behindLocation {target : Str} {first : Str} {rest : List Str}
    (hbehind : behindLocation target = first :: rest) :
    split (cStr target) '/' = .ok (first :: rest) := by
  rw [behindLocation] at hbehind
  rw [split_slash]
  cases hsegments : segments (cStr target) with
  | nil =>
      rw [hsegments] at hbehind
      contradiction
  | cons location others =>
      rw [hsegments] at hbehind
      rw [← hbehind]
      rfl

/-- The response says what the store answers. -/
def Answer.Shows (response : Response) : Answer → Prop
  | .stored id =>
      response.result = .ok ∧ response.body = ApiHandler.idResponse id.1
  | .content body => response.result = .ok ∧ response.body = body
  | .listing ids =>
      response.result = .ok ∧ ∃ order : List FileNo, order.Nodup ∧
        (∀ id, id ∈ order ↔ id ∈ ids) ∧
        response.body = "[".toList ++ ", ".toList.intercalate (order.map Subtype.val) ++
          "]".toList
  | .deleted => response.result = .ok
  | .rejected => response.result = .badRequest

/-- The request got a response, and it says what the store answers. -/
def Answer.Shown (answer : Answer) (outcome : Except Fault (Bool × Response)) : Prop :=
  ∃ reply, outcome = .ok reply ∧ answer.Shows reply.2

/-- A computation answers as the store does and leaves its image. -/
def Performs (start : Disk) (root : List Str) (disk : Disk)
    (act : Act Disk (Bool × Response)) (ideal : Answer × CrudStore) : Prop :=
  ideal.1.Shown (act.exec disk).1 ∧ Holds start root (act.exec disk).2 ideal.2

theorem Performs.of_exec {start disk later : Disk} {root : List Str}
    {act : Act Disk (Bool × Response)} {ideal : Answer × CrudStore}
    (reply : Bool × Response) (hexec : act.exec disk = (.ok reply, later))
    (hshows : ideal.1.Shows reply.2) (hholds : Holds start root later ideal.2) :
    Performs start root disk act ideal := by
  constructor
  · rw [hexec]
    exact ⟨reply, rfl, hshows⟩
  · rwa [hexec]

/-- The id that a scan of the directory finds is the next id of the entity. -/
theorem uniqueFileName_eq_nextId {store : CrudStore} {entity : Str} {names : List Str}
    (hnames : ∀ name, name ∈ names ↔ ∃ id ∈ store.keys entity, id.1 = name)
    (hroom : ∀ id ∈ store.keys entity, (decimal id.1 : Int) < intMax) :
    uniqueFileName names = .ok (store.largestId entity + 1 : Nat) := by
  have hstoi : ∀ id ∈ store.keys entity, stoi (stem id.1) = .ok (decimal id.1 : Int) := by
    intro id hid
    rw [id.2.stem, stoi_of_isDigits id.2, if_pos (hroom id hid).le]
  have hnumbers : ∀ name ∈ names, ∃ number, stoi (stem name) = .ok number := by
    intro name hname
    obtain ⟨id, hid, rfl⟩ := (hnames name).mp hname
    exact ⟨_, hstoi id hid⟩
  obtain ⟨number, hunique⟩ := (exists_uniqueFileName_iff names).mpr hnumbers
  have hsmall : ∀ name ∈ names, stoi (stem name) ≠ .ok intMax := by
    intro name hname
    obtain ⟨id, hid, rfl⟩ := (hnames name).mp hname
    rw [hstoi id hid, ne_eq, Except.ok.injEq]
    exact (hroom id hid).ne
  obtain ⟨largest, hlargest, rfl, hnonneg, -⟩ := uniqueFileName_eq_ok hunique hsmall
  obtain ⟨-, hbound, hattained⟩ := largestFile_spec hlargest
  have hle : largest ≤ store.largestId entity := by
    rcases hattained with rfl | ⟨name, hname, hvalue⟩
    · omega
    · obtain ⟨id, hid, rfl⟩ := (hnames name).mp hname
      rw [hstoi id hid, Except.ok.injEq] at hvalue
      rw [← hvalue, Int.ofNat_le]
      exact Finset.le_sup (f := fun id : FileNo => decimal id.1) hid
  have hge : store.largestId entity ≤ largest.toNat := by
    apply Finset.sup_le
    intro id hid
    obtain ⟨number, hnumber, hvalue⟩ := hbound id.1 ((hnames id.1).mpr ⟨id, hid, rfl⟩)
    rw [hstoi id hid, Except.ok.injEq] at hvalue
    omega
  rw [hunique]
  congr 1
  push_cast
  omega

/-- The names of ids are the ids in some order. -/
theorem exists_order {ids : Finset FileNo} {names : List Str} (hnodup : names.Nodup)
    (hnames : ∀ name, name ∈ names ↔ ∃ id ∈ ids, id.1 = name) :
    ∃ order : List FileNo, order.Nodup ∧ (∀ id, id ∈ order ↔ id ∈ ids) ∧
      order.map Subtype.val = names := by
  have hdigits : ∀ name ∈ names, IsDigits name := by
    intro name hname
    obtain ⟨id, -, rfl⟩ := (hnames name).mp hname
    exact id.2
  have hvalues := List.attachWith_map_subtype_val hdigits
  refine ⟨names.attachWith IsDigits hdigits, ?_, ?_, hvalues⟩
  · exact List.Nodup.of_map Subtype.val (hvalues.symm ▸ hnodup)
  · intro id
    rw [List.mem_attachWith, hnames]
    constructor
    · rintro ⟨other, hother, heq⟩
      rwa [← Subtype.ext heq]
    · intro hid
      exact ⟨id, hid, rfl⟩

namespace ApiHandler

section Paths

variable (location : Str) (host : Host) {start disk : Disk} {dataPath : Str}
  {root : List Str} {store : CrudStore} (hstart : EmptyDirectory start dataPath root)
  (hholds : Holds start root disk store) {entity : Str}
  (hentity : entity ≠ [] ∧ '/' ∉ entity ∧ IsName entity)

include hstart hholds hentity

theorem resolve_entity :
    disk.resolve ((real location dataPath host).entityPath entity) =
      some (root ++ [entity]) := by
  rw [resolve_entityPath (real location dataPath host) hstart
    (hholds.extends_start hstart) hentity.1 hentity.2.1, component_of_isName hentity.2.2]
  rfl

theorem resolve_file (id : FileNo) :
    disk.resolve ((real location dataPath host).filePath entity id.1) =
      if entity ∈ store then some (root ++ [entity] ++ [id.1]) else none := by
  rw [resolve_filePath (real location dataPath host) hstart
    (hholds.extends_start hstart) hentity.1 hentity.2.1 id.segment.1 id.segment.2.1
    id.segment.2.2, component_of_isName hentity.2.2]
  simp only [Tree.enter, hholds.isDirectory_entity_iff]

/-- The files on the disk are the bodies in the store. -/
theorem status_file (id : FileNo) :
    disk.status ((real location dataPath host).filePath entity id.1) =
      (store.get? entity id).map .file := by
  rw [Disk.status, resolve_file location host hstart hholds hentity id]
  split
  · exact hholds.node?_file entity id
  · next hstored =>
      have hnone : store.get? entity id = none := by
        rw [Option.eq_none_iff_forall_ne_some]
        exact fun body hbody => hstored (NestedMap.mem_of_get? hbody)
      rw [hnone]
      rfl

theorem exec_pathExists :
    ((real location dataPath host).fs.pathExists
      ((real location dataPath host).entityPath entity)).exec disk =
        (.ok (decide (entity ∈ store)), disk) := by
  have hresolve := resolve_entity location host hstart hholds hentity
  have hpresent : disk.pathExists ((real location dataPath host).entityPath entity) =
      decide (entity ∈ store) := by
    rw [Disk.pathExists, Disk.status_of_resolve hresolve, hholds.node?_entity]
    by_cases hstored : entity ∈ store <;> simp [hstored]
  rw [← hpresent]
  rfl

end Paths

section Operations

variable {host : Host} (hhost : host.Succeeds) (location : Str) {start disk : Disk}
  {dataPath : Str} {root : List Str} {store : CrudStore}
  (hstart : EmptyDirectory start dataPath root) (hholds : Holds start root disk store)
  {entity : Str} (hentity : entity ≠ [] ∧ '/' ∉ entity ∧ IsName entity)

include hhost hstart hholds hentity

theorem performs_handlePost {httpRequest : Request} (hbody : nul ∉ httpRequest.body)
    (hroom : ∀ id ∈ store.keys entity, (decimal id.1 : Int) < intMax)
    (httpResponse : Response) :
    Performs start root disk
      ((real location dataPath host).handlePost [entity] httpRequest httpResponse)
      (CrudStore.step store (.post entity httpRequest.body)) := by
  have hresolve := resolve_entity location host hstart hholds hentity
  have hexec : ((real location dataPath host).fs.genIdAndWriteFile _ _).exec disk = _ :=
    RealFileSystem.exec_genIdAndWriteFile hhost hresolve httpRequest.body
  have hunique : uniqueFileName (host.listing
      ((disk.ensured (root ++ [entity])).tree.children (root ++ [entity]))) =
        .ok (store.largestId entity + 1 : Nat) := by
    apply uniqueFileName_eq_nextId _ hroom
    intro name
    rw [(host.listing_perm _).mem_iff, Disk.mem_children_ensured,
      hholds.mem_children_iff]
  have hopen := hholds.openable_ensured hresolve (store.nextId entity)
  have hid : toStringInt (store.largestId entity + 1 : Nat) = (store.nextId entity).1 := rfl
  rw [if_pos (hholds.isDirectory_ensured entity), hunique] at hexec
  simp only [hid, hopen, cStr_eq_self hbody] at hexec
  have hne : ((store.largestId entity + 1 : Nat) : Int) ≠ -1 := by omega
  refine .of_exec (respond true .ok (idResponse (store.nextId entity).1) httpResponse)
    ?_ ⟨rfl, rfl⟩ (hholds.set entity (store.nextId entity) httpRequest.body)
  rw [handlePost_entity, Act.exec_bind_ok hexec, if_neg hne]
  rfl

theorem performs_handlePut {httpRequest : Request} (hbody : nul ∉ httpRequest.body)
    (id : FileNo) (httpResponse : Response) :
    Performs start root disk
      ((real location dataPath host).handlePut [entity, id.1] httpRequest httpResponse)
      (CrudStore.step store (.put entity id httpRequest.body)) := by
  have hresolve := resolve_entity location host hstart hholds hentity
  have hopen := hholds.openable_ensured hresolve id
  have hparent := parentPath_filePath (real location dataPath host) hentity.1 hentity.2.1
    id.segment.2.1
  have hexec : ((real location dataPath host).fs.writeFile _ _).exec disk = _ :=
    RealFileSystem.exec_writeFile hhost (hparent.symm ▸ hresolve) httpRequest.body
  rw [filePath_eq_entityPath] at hexec
  simp only [hopen, cStr_eq_self hbody] at hexec
  refine .of_exec (respond true .ok (idResponse id.1) httpResponse) ?_ ⟨rfl, rfl⟩
    (hholds.set entity id httpRequest.body)
  rw [handlePut_file, filePath_eq_entityPath, Act.exec_bind_ok hexec]
  rfl

theorem performs_handleGet_entity (httpResponse : Response) :
    Performs start root disk
      ((real location dataPath host).handleGet [entity] httpResponse)
      (CrudStore.step store (.list entity)) := by
  have hexists := exec_pathExists location host hstart hholds hentity
  by_cases hstored : entity ∈ store
  · have hresolve := resolve_entity location host hstart hholds hentity
    have hexec : ((real location dataPath host).fs.getFileList _).exec disk = _ :=
      RealFileSystem.exec_getFileList hhost hresolve
    rw [if_pos ((hholds.isDirectory_entity_iff entity).mpr hstored)] at hexec
    have hperm := host.listing_perm (disk.tree.children (root ++ [entity]))
    have hnames : ∀ name, name ∈ host.listing (disk.tree.children (root ++ [entity])) ↔
        ∃ id ∈ store.keys entity, id.1 = name := by
      intro name
      rw [hperm.mem_iff, hholds.mem_children_iff]
    obtain ⟨order, hnodup, horder, hvalues⟩ := exists_order
      (hperm.nodup_iff.mpr (Tree.children_nodup _ _)) hnames
    obtain ⟨id, hid⟩ := (NestedMap.mem_iff store entity).mp hstored
    have hne := List.ne_nil_of_mem ((hnames id.1).mpr ⟨id, hid, rfl⟩)
    have hstem : ∀ name ∈ host.listing (disk.tree.children (root ++ [entity])),
        stem name = name := by
      intro name hname
      obtain ⟨other, -, rfl⟩ := (hnames name).mp hname
      exact other.2.stem
    rw [CrudStore.step, if_pos hstored]
    refine .of_exec (respond true .ok
      (fileList (host.listing (disk.tree.children (root ++ [entity])))) httpResponse)
      ?_ ⟨rfl, order, hnodup, horder, ?_⟩ hholds
    · rw [handleGet_entity, Act.exec_bind_ok hexists, decide_eq_true hstored, if_neg (by simp),
        Act.exec_bind_ok hexec]
      rfl
    · rw [hvalues]
      exact fileList_eq_intercalate hne hstem
  · rw [CrudStore.step, if_neg hstored]
    refine .of_exec (respond false .badRequest "Invalid entity requested\n".toList
      httpResponse) ?_ rfl hholds
    rw [handleGet_entity, Act.exec_bind_ok hexists, decide_eq_false hstored, if_pos rfl]
    rfl

theorem performs_handleGet_file (id : FileNo) (httpResponse : Response) :
    Performs start root disk
      ((real location dataPath host).handleGet [entity, id.1] httpResponse)
      (CrudStore.step store (.get entity id)) := by
  have hexists := exec_pathExists location host hstart hholds hentity
  have hstatus := status_file location host hstart hholds hentity id
  have hread : ((real location dataPath host).fs.readFile
      ((real location dataPath host).filePath entity id.1)).exec disk =
        (.ok (store.get? entity id), disk) := by
    change (_, _) = (_, _)
    rw [Disk.isRegularFile, Disk.read, hstatus]
    cases store.get? entity id <;> simp [hhost.1]
  cases hget : store.get? entity id with
  | none =>
      rw [CrudStore.step, hget]
      by_cases hstored : entity ∈ store
      · refine .of_exec (respond false .badRequest
          "Requested ID does not exist\n".toList httpResponse) ?_ rfl hholds
        rw [handleGet_file, Act.exec_bind_ok hexists, decide_eq_true hstored,
          if_neg (by simp), Act.exec_bind_ok hread, hget]
        rfl
      · refine .of_exec (respond false .badRequest
          "Invalid entity requested\n".toList httpResponse) ?_ rfl hholds
        rw [handleGet_file, Act.exec_bind_ok hexists, decide_eq_false hstored, if_pos rfl]
        rfl
  | some body =>
      have hstored := NestedMap.mem_of_get? hget
      rw [CrudStore.step, hget]
      refine .of_exec (respond true .ok body httpResponse) ?_ ⟨rfl, rfl⟩ hholds
      rw [handleGet_file, Act.exec_bind_ok hexists, decide_eq_true hstored,
        if_neg (by simp), Act.exec_bind_ok hread, hget]
      rfl

omit hhost in
theorem performs_handleGet_deep (fileName next : Str) (rest : List Str)
    (httpResponse : Response) :
    Performs start root disk
      ((real location dataPath host).handleGet (entity :: fileName :: next :: rest)
        httpResponse)
      (CrudStore.step store .other) := by
  have hexists := exec_pathExists location host hstart hholds hentity
  by_cases hstored : entity ∈ store
  · refine .of_exec (respond false .badRequest
      "Not a valid API request target for GET\n".toList httpResponse) ?_ rfl hholds
    rw [handleGet_deep, Act.exec_bind_ok hexists, decide_eq_true hstored, if_neg (by simp)]
    rfl
  · refine .of_exec (respond false .badRequest
      "Invalid entity requested\n".toList httpResponse) ?_ rfl hholds
    rw [handleGet_deep, Act.exec_bind_ok hexists, decide_eq_false hstored, if_pos rfl]
    rfl

theorem performs_handleDelete (id : FileNo) (httpResponse : Response) :
    Performs start root disk
      ((real location dataPath host).handleDelete [entity, id.1] httpResponse)
      (CrudStore.step store (.delete entity id)) := by
  have hstatus := status_file location host hstart hholds hentity id
  have hregular : ((real location dataPath host).fs.isRegularFile
      ((real location dataPath host).filePath entity id.1)).exec disk =
        (.ok (store.get? entity id).isSome, disk) := by
    change (_, _) = (_, _)
    rw [Disk.isRegularFile, hstatus]
    cases store.get? entity id <;> rfl
  cases hget : store.get? entity id with
  | none =>
      rw [CrudStore.step, hget]
      refine .of_exec (respond false .badRequest
        "Requested ID does not exist.\n".toList httpResponse) ?_ rfl hholds
      rw [handleDelete_file, Act.exec_bind_ok hregular, hget, Option.isSome_none, if_pos rfl]
      rfl
  | some body =>
      have hstored := NestedMap.mem_of_get? hget
      have hid := (NestedMap.mem_keys store entity id).mpr (by simp [hget])
      have hresolve := resolve_file location host hstart hholds hentity id
      have hfile := hholds.node?_file entity id
      have hparent := resolve_entity location host hstart hholds hentity
      rw [if_pos hstored] at hresolve
      rw [hget] at hfile
      have hpath := parentPath_filePath (real location dataPath host) hentity.1
        hentity.2.1 id.segment.2.1
      have hexec : ((real location dataPath host).fs.remove _).exec disk = _ :=
        RealFileSystem.exec_remove hhost hresolve hfile (hpath.symm ▸ hparent)
          ((hholds.isDirectory_entity_iff entity).mpr hstored)
      rw [hpath, getLast?_components_entityPath _ hentity.1 hentity.2.1,
        component_of_isName hentity.2.2, if_neg (by simp)] at hexec
      rw [CrudStore.step, hget]
      refine .of_exec (respond true .ok "Successfully deleted ID\n".toList httpResponse)
        ?_ rfl (hholds.erase hid)
      rw [handleDelete_file, Act.exec_bind_ok hregular, hget, Option.isSome_some,
        if_neg (by simp), Act.exec_bind_ok hexec]
      rfl

omit hstart hentity hhost in
/-- A request that is turned away changes nothing. -/
theorem performs_other {act : Act Disk (Bool × Response)} {httpResponse : Response}
    {text : Str} (hact : act = pure (respond false .badRequest text httpResponse)) :
    Performs start root disk act (CrudStore.step store .other) := by
  rw [hact]
  exact .of_exec _ rfl rfl hholds

end Operations

section Handles

variable {σ : Type}

/-- What a handler does about a request that names an entity, beside the operation
that the request stands for. -/
inductive Handles (handler : ApiHandler σ) (httpRequest : Request) (httpResponse : Response)
    (entity : Str) : Act σ (Bool × Response) → Operation → Prop where
  | post (hmethod : httpRequest.method = "POST".toList)
      (hbehind : behindLocation httpRequest.target = [entity]) :
      Handles handler httpRequest httpResponse entity
        (handler.handlePost [entity] httpRequest httpResponse)
        (.post entity httpRequest.body)
  | list : Handles handler httpRequest httpResponse entity
      (handler.handleGet [entity] httpResponse) (.list entity)
  | get (id : FileNo) : Handles handler httpRequest httpResponse entity
      (handler.handleGet [entity, id.1] httpResponse) (.get entity id)
  | put (id : FileNo) : Handles handler httpRequest httpResponse entity
      (handler.handlePut [entity, id.1] httpRequest httpResponse)
      (.put entity id httpRequest.body)
  | delete (id : FileNo) : Handles handler httpRequest httpResponse entity
      (handler.handleDelete [entity, id.1] httpResponse) (.delete entity id)
  | deep (name next : Str) (rest : List Str) :
      Handles handler httpRequest httpResponse entity
        (handler.handleGet (entity :: name :: next :: rest) httpResponse) .other
  | rejected (text : Str) : Handles handler httpRequest httpResponse entity
      (pure (respond false .badRequest text httpResponse)) .other

variable (handler : ApiHandler σ) {httpRequest : Request} (httpResponse : Response)
  {entity : Str}

/-- Only a target of two segments is for PUT and DELETE. -/
theorem handles_dispatch_rejected {uri : List Str} (huri : uri.length ≠ 2)
    (hpost : httpRequest.method ≠ "POST".toList) (hget : httpRequest.method ≠ "GET".toList) :
    Handles handler httpRequest httpResponse entity
      (handler.dispatch uri httpRequest httpResponse) .other := by
  by_cases hput : httpRequest.method = "PUT".toList
  · rw [dispatch_put _ _ _ hput, handlePut_of_length_ne _ huri]
    exact .rejected _
  by_cases hdelete : httpRequest.method = "DELETE".toList
  · rw [dispatch_delete _ _ _ hdelete, handleDelete_of_length_ne _ huri]
    exact .rejected _
  · rw [dispatch_other _ _ _ hpost hget hput hdelete]
    exact .rejected _

theorem handles_dispatch_entity
    (hbehind : behindLocation httpRequest.target = [entity]) :
    Handles handler httpRequest httpResponse entity
      (handler.dispatch [entity] httpRequest httpResponse)
      (Operation.ofRequest httpRequest) := by
  rw [Operation.ofRequest, hbehind, Operation.ofSegments]
  by_cases hpost : httpRequest.method = "POST".toList
  · rw [dispatch_post _ _ _ hpost, if_pos hpost]
    exact .post hpost hbehind
  rw [if_neg hpost]
  by_cases hget : httpRequest.method = "GET".toList
  · rw [dispatch_get _ _ _ hget, if_pos hget]
    exact .list
  rw [if_neg hget]
  exact handles_dispatch_rejected handler httpResponse (by simp) hpost hget

theorem handles_dispatch_file (id : FileNo)
    (hbehind : behindLocation httpRequest.target = [entity, id.1]) :
    Handles handler httpRequest httpResponse entity
      (handler.dispatch [entity, id.1] httpRequest httpResponse)
      (Operation.ofRequest httpRequest) := by
  rw [Operation.ofRequest, hbehind, Operation.ofSegments]
  simp only [dif_pos id.2]
  by_cases hget : httpRequest.method = "GET".toList
  · rw [dispatch_get _ _ _ hget, if_pos hget]
    exact .get id
  rw [if_neg hget]
  by_cases hput : httpRequest.method = "PUT".toList
  · rw [dispatch_put _ _ _ hput, if_pos hput]
    exact .put id
  rw [if_neg hput]
  by_cases hdelete : httpRequest.method = "DELETE".toList
  · rw [dispatch_delete _ _ _ hdelete, if_pos hdelete]
    exact .delete id
  rw [if_neg hdelete]
  by_cases hpost : httpRequest.method = "POST".toList
  · rw [dispatch_post _ _ _ hpost, handlePost_of_length_ne _ (by simp)]
    exact .rejected _
  · rw [dispatch_other _ _ _ hpost hget hput hdelete]
    exact .rejected _

theorem handles_dispatch_deep (name next : Str) (rest : List Str)
    (hbehind : behindLocation httpRequest.target = entity :: name :: next :: rest) :
    Handles handler httpRequest httpResponse entity
      (handler.dispatch (entity :: name :: next :: rest) httpRequest httpResponse)
      (Operation.ofRequest httpRequest) := by
  rw [Operation.ofRequest, hbehind]
  by_cases hpost : httpRequest.method = "POST".toList
  · rw [dispatch_post _ _ _ hpost, handlePost_of_length_ne _ (by simp)]
    exact .rejected _
  by_cases hget : httpRequest.method = "GET".toList
  · rw [dispatch_get _ _ _ hget]
    exact .deep name next rest
  exact handles_dispatch_rejected handler httpResponse (by simp) hpost hget

/-- A request that names an entity is handled as its operation says. -/
theorem handles_handleRequest {rest : List Str}
    (hbehind : behindLocation httpRequest.target = entity :: rest) :
    Handles handler httpRequest httpResponse entity
      (handler.handleRequest httpRequest httpResponse) (Operation.ofRequest httpRequest) := by
  have hsplit := split_of_behindLocation hbehind
  rcases rest with _ | ⟨name, _ | ⟨next, others⟩⟩
  · rw [handleRequest_of_isFileNumber _ _ hsplit rfl]
    exact handles_dispatch_entity handler httpResponse hbehind
  · by_cases hdigits : IsDigits name
    · rw [handleRequest_of_isFileNumber _ _ hsplit ((isNumber_iff name).mpr hdigits)]
      exact handles_dispatch_file handler httpResponse ⟨name, hdigits⟩ hbehind
    · have hnumber : isFileNumber [entity, name] = false := by
        rw [Bool.eq_false_iff]
        exact fun h => hdigits ((isNumber_iff name).mp h)
      have hother : Operation.ofRequest httpRequest = .other := by
        rw [Operation.ofRequest, hbehind, Operation.ofSegments]
        exact dif_neg hdigits
      rw [hother, handleRequest_of_not_isFileNumber _ _ hsplit hnumber]
      exact .rejected _
  · rw [handleRequest_of_isFileNumber _ _ hsplit rfl]
    exact handles_dispatch_deep handler httpResponse name next others hbehind

end Handles

end ApiHandler

/-- What the refinement asks of a request: an entity that is a name, a body that
is a C string, and for a POST ids whose successors are `int`s. -/
structure CrudStore.Admits (store : CrudStore) (httpRequest : Request) : Prop where
  entity : ∃ entity rest, behindLocation httpRequest.target = entity :: rest ∧
    IsName entity
  body : nul ∉ httpRequest.body
  room : httpRequest.method = "POST".toList → ∀ entity,
    behindLocation httpRequest.target = [entity] →
      ∀ id ∈ store.keys entity, (decimal id.1 : Int) < intMax

/-- The same of a request to a location, which must be a single segment: the code takes the
first segment of a target for the location, whatever the location is. -/
structure CrudStore.AdmitsAt (store : CrudStore) (input : Str × Request) : Prop where
  location : (segments input.1).length = 1
  request : store.Admits input.2

namespace ApiHandler

variable {start disk : Disk} {dataPath : Str} {root : List Str} {store : CrudStore}

/-- One request does to the disk what its operation does to the store. -/
theorem performs_handleRequest {host : Host} (hhost : host.Succeeds) (location : Str)
    (hstart : EmptyDirectory start dataPath root) (hholds : Holds start root disk store)
    {httpRequest : Request} (hadmits : store.Admits httpRequest)
    (httpResponse : Response) :
    Performs start root disk
      ((real location dataPath host).handleRequest httpRequest httpResponse)
      (CrudStore.step store (Operation.ofRequest httpRequest)) := by
  obtain ⟨entity, rest, hbehind, hname⟩ := hadmits.entity
  have hmem := mem_of_split (split_of_behindLocation hbehind) List.mem_cons_self
  have hentity : entity ≠ [] ∧ '/' ∉ entity ∧ IsName entity := ⟨hmem.1, hmem.2.1, hname⟩
  have hhandles := handles_handleRequest (real location dataPath host) httpResponse hbehind
  generalize (real location dataPath host).handleRequest httpRequest httpResponse = act
    at hhandles ⊢
  generalize Operation.ofRequest httpRequest = operation at hhandles ⊢
  cases hhandles with
  | post hmethod hbehind =>
      exact performs_handlePost hhost location hstart hholds hentity hadmits.body
        (hadmits.room hmethod entity hbehind) httpResponse
  | list => exact performs_handleGet_entity hhost location hstart hholds hentity httpResponse
  | get id => exact performs_handleGet_file hhost location hstart hholds hentity id httpResponse
  | put id =>
      exact performs_handlePut hhost location hstart hholds hentity hadmits.body id httpResponse
  | delete id =>
      exact performs_handleDelete hhost location hstart hholds hentity id httpResponse
  | deep name next rest =>
      exact performs_handleGet_deep location hstart hholds hentity name next rest httpResponse
  | rejected text => exact performs_other hholds rfl

/-- The store that the requests of `apiMachine` are meant for. -/
def idealMachine : Machine CrudStore (WorkingHost × Request) Answer :=
  crudMachine.comap fun input => Operation.ofRequest input.2

/-- From an empty data directory every run of requests is answered as the store
answers it, and after each of them the tree is the image of the store. -/
theorem apiMachine_refines_crudMachine (location : Str)
    (hstart : EmptyDirectory start dataPath root) (inputs : List (WorkingHost × Request))
    (hadmits : idealMachine.Guarded (fun store input => store.Admits input.2) ∅ inputs) :
    List.Forall₂
      (fun real ideal => ideal.1.Shown real.1 ∧ Holds start root real.2 ideal.2)
      ((apiMachine location dataPath).trace start inputs)
      (idealMachine.trace ∅ inputs) := by
  have hsim : Machine.Simulates (apiMachine location dataPath) idealMachine
      (fun store input => store.Admits input.2) (Holds start root)
      (fun real ideal => ideal.Shown real) := by
    constructor
    · intro disk store input hholds hinput
      exact (performs_handleRequest input.1.2 location hstart hholds hinput
        Response.empty).1
    · intro disk store input hholds hinput
      exact (performs_handleRequest input.1.2 location hstart hholds hinput
        Response.empty).2
  exact hsim.trace inputs (Holds.empty hstart) hadmits

end ApiHandler

namespace CrudRefinementWitness

open DataDirectoryWitness

def location : Str := "/api/".toList

def host : WorkingHost := ⟨workingHost, workingHost_succeeds⟩

def postRequest : Request := ⟨"POST".toList, "/api/shoes".toList, "red".toList⟩

def deleteRequest : Request := ⟨"DELETE".toList, "/api/shoes/1".toList, []⟩

def inputs : List (WorkingHost × Request) :=
  [(host, postRequest), (host, deleteRequest)]

theorem behindLocation_post :
    behindLocation postRequest.target = ["shoes".toList] := by
  decide +kernel

theorem behindLocation_delete :
    behindLocation deleteRequest.target = ["shoes".toList, "1".toList] := by
  decide +kernel

theorem admits_post {store : CrudStore} (hstore : store.keys "shoes".toList = ∅) :
    store.Admits postRequest := by
  refine ⟨⟨_, _, behindLocation_post, by decide⟩, by decide, ?_⟩
  rintro - entity hbehind id hid
  rw [behindLocation_post, List.cons.injEq] at hbehind
  rw [← hbehind.1, hstore] at hid
  contradiction

theorem admits_delete (store : CrudStore) : store.Admits deleteRequest :=
  ⟨⟨_, _, behindLocation_delete, by decide⟩, by decide, fun h => absurd h (by decide)⟩

theorem admits_inputs : ApiHandler.idealMachine.Guarded
    (fun store input => store.Admits input.2) ∅ inputs :=
  ⟨admits_post rfl, admits_delete _, trivial⟩

theorem apiMachine_refines_inputs :
    List.Forall₂
      (fun real ideal =>
        ideal.1.Shown real.1 ∧ Holds disk ["mnt".toList] real.2 ideal.2)
      ((apiMachine location dataPath).trace disk inputs)
      (ApiHandler.idealMachine.trace ∅ inputs) :=
  ApiHandler.apiMachine_refines_crudMachine location emptyDirectory_disk inputs
    admits_inputs

end CrudRefinementWitness

end SwanServer
