/-
The API over the fake file system beside the API over the real one.  The fake
keeps the directory of an entity whose last file is deleted, the real one does
not; the statuses of a run show nothing else of the difference.
-/
import SwanServer.CrudRefinement
import SwanServer.FakeFileSystem

namespace SwanServer

open FileTree LexicalPath

/-- The store, and the entities that a body was ever stored under. -/
structure Ledger where
  store : CrudStore
  opened : Finset Str

/-- The entities that an operation stores a body under. -/
def Operation.opens : Operation → Finset Str
  | .post entity _ => {entity}
  | .put entity _ _ => {entity}
  | _ => ∅

def Ledger.step (ledger : Ledger) (operation : Operation) : Ledger :=
  ⟨(ledger.store.step operation).2, operation.opens ∪ ledger.opened⟩

theorem Ledger.step_list (ledger : Ledger) (entity : Str) :
    ledger.step (.list entity) = ledger := by
  rw [Ledger.step, CrudStore.step]
  split <;> simp [Operation.opens]

theorem Ledger.step_get (ledger : Ledger) (entity : Str) (id : FileNo) :
    ledger.step (.get entity id) = ledger := by
  rw [Ledger.step, CrudStore.step]
  split <;> simp [Operation.opens]

theorem Ledger.step_delete (ledger : Ledger) (entity : Str) (id : FileNo) :
    ledger.step (.delete entity id) =
      ⟨(ledger.store.step (.delete entity id)).2, ledger.opened⟩ := by
  simp [Ledger.step, Operation.opens]

theorem Ledger.step_other (ledger : Ledger) : ledger.step .other = ledger := by
  simp [Ledger.step, CrudStore.step, Operation.opens]

/-- The fake holds the path of every opened entity and of every stored id. -/
structure Shadows (dataPath : Str) (fake : FakeFileSystem) (ledger : Ledger) : Prop where
  slash : ∀ entity ∈ ledger.opened, '/' ∉ entity
  stored : ∀ entity ∈ ledger.store, entity ∈ ledger.opened
  paths : ∀ path, path ∈ fake.ffs.keys ↔
    (∃ entity ∈ ledger.opened, path = dataPath ++ '/' :: entity) ∨
      ∃ entity, ∃ id ∈ ledger.store.keys entity, path = dataPath ++ '/' :: entity ++ '/' :: id.1

theorem entityPath_ne_filePath {dataPath entity other : Str} (hslash : '/' ∉ other)
    (name : Str) : dataPath ++ '/' :: other ≠ dataPath ++ '/' :: entity ++ '/' :: name := by
  intro heq
  rw [List.append_assoc, List.append_cancel_left_eq, List.cons_append,
    List.cons.injEq] at heq
  rw [heq.2] at hslash
  simp at hslash

theorem filePath_inj {dataPath entity other : Str} {id otherId : FileNo} :
    dataPath ++ '/' :: entity ++ '/' :: id.1 = dataPath ++ '/' :: other ++ '/' :: otherId.1 ↔
      entity = other ∧ id = otherId := by
  constructor
  · intro heq
    have hcut := congrArg cutAtLastSlash heq
    rw [cutAtLastSlash_append id.segment.2.1, cutAtLastSlash_append otherId.segment.2.1,
      Prod.mk.injEq, List.append_cancel_left_eq, List.cons.injEq] at hcut
    exact ⟨hcut.1.2, Subtype.ext hcut.2⟩
  · rintro ⟨rfl, rfl⟩
    rfl

namespace Shadows

variable {dataPath : Str} {fake : FakeFileSystem} {ledger : Ledger} {entity : Str}

theorem empty (dataPath : Str) : Shadows dataPath ⟨OrderedMap.empty⟩ ⟨∅, ∅⟩ := by
  refine ⟨by simp, fun entity hentity => absurd hentity (NestedMap.not_mem_empty entity), ?_⟩
  intro path
  simp [OrderedMap.keys, OrderedMap.empty]

variable (hshadows : Shadows dataPath fake ledger)

include hshadows

theorem mem_entity_iff (hslash : '/' ∉ entity) :
    dataPath ++ '/' :: entity ∈ fake.ffs.keys ↔ entity ∈ ledger.opened := by
  rw [hshadows.paths]
  constructor
  · rintro (⟨other, hother, heq⟩ | ⟨other, id, -, heq⟩)
    · rw [List.append_cancel_left_eq, List.cons.injEq] at heq
      rwa [heq.2]
    · exact absurd heq (entityPath_ne_filePath hslash id.1)
  · intro hopened
    exact Or.inl ⟨entity, hopened, rfl⟩

theorem mem_file_iff (id : FileNo) :
    dataPath ++ '/' :: entity ++ '/' :: id.1 ∈ fake.ffs.keys ↔
      ledger.store.get? entity id ≠ none := by
  rw [hshadows.paths, ← NestedMap.mem_keys]
  constructor
  · rintro (⟨other, hother, heq⟩ | ⟨other, otherId, hid, heq⟩)
    · exact absurd heq.symm (entityPath_ne_filePath (hshadows.slash other hother) id.1)
    · obtain ⟨rfl, rfl⟩ := filePath_inj.mp heq
      exact hid
  · intro hid
    exact Or.inr ⟨entity, id, hid, rfl⟩

/-- The ids below an entity are the stored ones. -/
theorem mem_idsBelow_iff {name : Str} :
    name ∈ fake.idsBelow (dataPath ++ '/' :: entity) ↔
      ∃ id ∈ ledger.store.keys entity, id.1 = name := by
  rw [FakeFileSystem.mem_idsBelow]
  constructor
  · rintro ⟨path, hpath, -, hcut⟩
    rcases (hshadows.paths path).mp hpath with ⟨other, hother, rfl⟩ | ⟨other, id, hid, rfl⟩
    · rw [cutAtLastSlash_append (hshadows.slash other hother), Prod.mk.injEq] at hcut
      have hlength := congrArg List.length hcut.1
      simp at hlength
    · rw [cutAtLastSlash_append id.segment.2.1, Prod.mk.injEq, List.append_cancel_left_eq,
        List.cons.injEq] at hcut
      obtain ⟨⟨-, rfl⟩, hvalue⟩ := hcut
      exact ⟨id, hid, hvalue⟩
  · rintro ⟨id, hid, rfl⟩
    refine ⟨dataPath ++ '/' :: entity ++ '/' :: id.1,
      (hshadows.paths _).mpr (Or.inr ⟨entity, id, hid, rfl⟩), ?_,
      cutAtLastSlash_append id.segment.2.1⟩
    intro heq
    have hlength := congrArg List.length heq
    simp at hlength

theorem ensured (hslash : '/' ∉ entity) :
    Shadows dataPath (fake.ensured (dataPath ++ '/' :: entity))
      ⟨ledger.store, {entity} ∪ ledger.opened⟩ := by
  refine ⟨?_, ?_, ?_⟩
  · intro other hother
    rcases Finset.mem_union.mp hother with hsame | hother
    · rwa [Finset.mem_singleton.mp hsame]
    · exact hshadows.slash other hother
  · intro other hother
    exact Finset.mem_union_right _ (hshadows.stored other hother)
  · intro path
    rw [FakeFileSystem.mem_keys_ensured, hshadows.paths, ← or_assoc]
    simp [or_and_right, exists_or]

/-- A file written below its entity is the shadow of its id. -/
theorem set (hopened : entity ∈ ledger.opened) (id : FileNo) (body : Str) :
    Shadows dataPath ⟨fake.ffs.insert (dataPath ++ '/' :: entity ++ '/' :: id.1) ()⟩
      ⟨NestedMap.set ledger.store entity id body, ledger.opened⟩ := by
  refine ⟨hshadows.slash, ?_, ?_⟩
  · intro other hother
    rcases (NestedMap.mem_set _ _ _ _ _).mp hother with rfl | hother
    · exact hopened
    · exact hshadows.stored other hother
  · intro path
    rw [OrderedMap.mem_keys_insert, hshadows.paths]
    simp only [NestedMap.keys_set]
    constructor
    · rintro (rfl | hentity | ⟨other, otherId, hid, rfl⟩)
      · exact Or.inr ⟨entity, id, by simp, rfl⟩
      · exact Or.inl hentity
      · refine Or.inr ⟨other, otherId, ?_, rfl⟩
        split
        · next heq => exact Finset.mem_insert_of_mem (heq ▸ hid)
        · exact hid
    · rintro (hentity | ⟨other, otherId, hid, rfl⟩)
      · exact Or.inr (Or.inl hentity)
      · split at hid
        · next heq =>
            subst heq
            rcases Finset.mem_insert.mp hid with rfl | hid
            · exact Or.inl rfl
            · exact Or.inr (Or.inr ⟨other, otherId, hid, rfl⟩)
        · exact Or.inr (Or.inr ⟨other, otherId, hid, rfl⟩)

/-- The fake removes a file and leaves its directory. -/
theorem erase (id : FileNo) :
    Shadows dataPath ⟨fake.ffs.erase (dataPath ++ '/' :: entity ++ '/' :: id.1)⟩
      ⟨NestedMap.erase ledger.store entity id, ledger.opened⟩ := by
  refine ⟨hshadows.slash, ?_, ?_⟩
  · intro other hother
    exact hshadows.stored other ((NestedMap.mem_erase _ _ _ _).mp hother).1
  · intro path
    rw [OrderedMap.mem_keys_erase, hshadows.paths]
    simp only [NestedMap.keys_erase]
    constructor
    · rintro ⟨hne, hentity | ⟨other, otherId, hid, rfl⟩⟩
      · exact Or.inl hentity
      · refine Or.inr ⟨other, otherId, ?_, rfl⟩
        split
        · next heq =>
            subst heq
            refine Finset.mem_erase.mpr ⟨?_, hid⟩
            rintro rfl
            exact hne rfl
        · exact hid
    · rintro (⟨other, hother, rfl⟩ | ⟨other, otherId, hid, rfl⟩)
      · exact ⟨entityPath_ne_filePath (hshadows.slash other hother) id.1,
          Or.inl ⟨other, hother, rfl⟩⟩
      · split at hid
        · next heq =>
            subst heq
            obtain ⟨hne, hid⟩ := Finset.mem_erase.mp hid
            exact ⟨fun heq => hne (filePath_inj.mp heq).2, Or.inr ⟨other, otherId, hid, rfl⟩⟩
        · next hne =>
            exact ⟨fun heq => hne (filePath_inj.mp heq).1, Or.inr ⟨other, otherId, hid, rfl⟩⟩

theorem congr {other : FakeFileSystem}
    (hkeys : ∀ path, path ∈ other.ffs.keys ↔ path ∈ fake.ffs.keys) :
    Shadows dataPath other ledger :=
  ⟨hshadows.slash, hshadows.stored, fun path => (hkeys path).trans (hshadows.paths path)⟩

theorem exec_exists_entity (hslash : '/' ∉ entity) :
    (FakeFileSystem.pathExists (dataPath ++ '/' :: entity)).exec fake =
      (.ok (decide (entity ∈ ledger.opened)), fake) := by
  rw [FakeFileSystem.exec_pathExists]
  congr 2
  rw [Bool.eq_iff_iff, FakeFileSystem.contains_iff, hshadows.mem_entity_iff hslash,
    decide_eq_true_iff]

theorem contains_file (id : FileNo) :
    fake.contains (dataPath ++ '/' :: entity ++ '/' :: id.1) =
      (ledger.store.get? entity id).isSome := by
  rw [Bool.eq_iff_iff, FakeFileSystem.contains_iff, hshadows.mem_file_iff,
    Option.isSome_iff_ne_none]

theorem exec_readFile (id : FileNo) :
    (FakeFileSystem.readFile (dataPath ++ '/' :: entity ++ '/' :: id.1)).exec fake =
      (.ok ((ledger.store.get? entity id).map
        fun _ => "Read file successfully\n".toList), fake) := by
  rw [FakeFileSystem.readFile, Act.exec_bind_ok (FakeFileSystem.exec_pathExists fake _),
    hshadows.contains_file]
  cases ledger.store.get? entity id <;> rfl

theorem exec_remove (id : FileNo) :
    (FakeFileSystem.remove (dataPath ++ '/' :: entity ++ '/' :: id.1)).exec fake =
      (.ok (ledger.store.get? entity id).isSome,
        ⟨fake.ffs.erase (dataPath ++ '/' :: entity ++ '/' :: id.1)⟩) := by
  rw [FakeFileSystem.remove, Act.exec_attempt, hshadows.contains_file]

end Shadows

/-- The status that shows an answer of the store. -/
def Answer.status : Answer → Status
  | .rejected => .badRequest
  | _ => .ok

/-- The status that the fake answers an operation with. -/
def Ledger.fakeStatus (ledger : Ledger) (operation : Operation) : Status :=
  match operation with
  | .list entity => if entity ∈ ledger.opened then .ok else .badRequest
  | _ => (ledger.store.step operation).1.status

theorem Ledger.fakeStatus_get (ledger : Ledger) (entity : Str) (id : FileNo) :
    ledger.fakeStatus (.get entity id) =
      (ledger.store.step (.get entity id)).1.status := rfl

theorem Ledger.fakeStatus_delete (ledger : Ledger) (entity : Str) (id : FileNo) :
    ledger.fakeStatus (.delete entity id) =
      (ledger.store.step (.delete entity id)).1.status := rfl

/-- The computation answers with a status and leaves the shadow of a ledger. -/
def FakePerforms (dataPath : Str) (fake : FakeFileSystem)
    (act : Act FakeFileSystem (Bool × Response)) (status : Status) (ledger : Ledger) :
    Prop :=
  ∃ reply later, act.exec fake = (.ok reply, later) ∧ reply.2.result = status ∧
    Shadows dataPath later ledger

theorem FakePerforms.of_exec {dataPath : Str} {fake later : FakeFileSystem}
    {act : Act FakeFileSystem (Bool × Response)} {status : Status} {ledger : Ledger}
    (reply : Bool × Response) (hexec : act.exec fake = (.ok reply, later))
    (hstatus : reply.2.result = status) (hlater : Shadows dataPath later ledger) :
    FakePerforms dataPath fake act status ledger :=
  ⟨reply, later, hexec, hstatus, hlater⟩

namespace ApiHandler

/-- The handler of a location over the fake file system. -/
def overFake (location dataPath : Str) : ApiHandler FakeFileSystem :=
  ⟨location, dataPath, fakeFileSystem⟩

section Operations

variable (location : Str) {dataPath : Str} {fake : FakeFileSystem} {ledger : Ledger}
  (hshadows : Shadows dataPath fake ledger) {entity : Str}

include hshadows

theorem fakePerforms_handlePost (hslash : '/' ∉ entity)
    (hroom : ∀ id ∈ ledger.store.keys entity, (decimal id.1 : Int) < intMax)
    (httpRequest : Request) (body : Str) (httpResponse : Response) :
    FakePerforms dataPath fake
      ((overFake location dataPath).handlePost [entity] httpRequest httpResponse)
      (ledger.fakeStatus (.post entity body)) (ledger.step (.post entity body)) := by
  have hensured := hshadows.ensured hslash
  have hunique : uniqueFileName ((fake.ensured (dataPath ++ '/' :: entity)).idsBelow
      (dataPath ++ '/' :: entity)) = .ok (ledger.store.largestId entity + 1 : Nat) :=
    uniqueFileName_eq_nextId (fun _ => hensured.mem_idsBelow_iff) hroom
  have hstem : ∀ id ∈ (fake.ensured (dataPath ++ '/' :: entity)).idsBelow
      (dataPath ++ '/' :: entity), stem id = id := by
    intro name hname
    obtain ⟨id, -, rfl⟩ := hensured.mem_idsBelow_iff.mp hname
    exact id.2.stem
  have hexec := FakeFileSystem.exec_genIdAndWriteFile hunique hstem httpRequest.body
  refine ⟨respond true .ok (idResponse (ledger.store.nextId entity).1) httpResponse, _, ?_,
    rfl, hensured.set (by simp) (ledger.store.nextId entity) body⟩
  rw [handlePost_entity, entityPath_eq]
  exact (Act.exec_bind_ok hexec).trans (by rw [if_neg (by omega)]; rfl)

theorem fakePerforms_handlePut (hne : entity ≠ []) (hslash : '/' ∉ entity) (id : FileNo)
    (httpRequest : Request) (body : Str) (httpResponse : Response) :
    FakePerforms dataPath fake
      ((overFake location dataPath).handlePut [entity, id.1] httpRequest httpResponse)
      (ledger.fakeStatus (.put entity id body)) (ledger.step (.put entity id body)) := by
  have hparent := parentPath_filePath (overFake location dataPath) hne hslash
    id.segment.2.1
  have hexec := FakeFileSystem.exec_writeFile fake
    ((overFake location dataPath).filePath entity id.1) httpRequest.body
  rw [hparent, filePath_eq_entityPath, entityPath_eq] at hexec
  refine ⟨respond true .ok (idResponse id.1) httpResponse, _, ?_, rfl,
    (hshadows.ensured hslash).set (by simp) id body⟩
  rw [handlePut_file, filePath_eq_entityPath, entityPath_eq]
  exact Act.exec_bind_ok hexec

theorem fakePerforms_handleGet_entity (hslash : '/' ∉ entity) (httpResponse : Response) :
    FakePerforms dataPath fake
      ((overFake location dataPath).handleGet [entity] httpResponse)
      (ledger.fakeStatus (.list entity)) (ledger.step (.list entity)) := by
  have hexists := hshadows.exec_exists_entity hslash
  have hlist : ∃ jsonList, (FakeFileSystem.getFileList (dataPath ++ '/' :: entity)).exec
      fake = (.ok jsonList, fake) := ⟨_, Act.exec_attempt _ _⟩
  obtain ⟨jsonList, hlist⟩ := hlist
  rw [handleGet_entity, entityPath_eq, Ledger.step_list, Ledger.fakeStatus]
  by_cases hopened : entity ∈ ledger.opened
  · rw [decide_eq_true hopened] at hexists
    rw [if_pos hopened]
    refine .of_exec (respond true .ok jsonList httpResponse) ?_ rfl hshadows
    exact (Act.exec_bind_ok hexists).trans (Act.exec_bind_ok hlist)
  · rw [decide_eq_false hopened] at hexists
    rw [if_neg hopened]
    refine .of_exec (respond false .badRequest "Invalid entity requested\n".toList
      httpResponse) ?_ rfl hshadows
    exact Act.exec_bind_ok hexists

theorem fakePerforms_handleGet_file (hslash : '/' ∉ entity) (id : FileNo)
    (httpResponse : Response) :
    FakePerforms dataPath fake
      ((overFake location dataPath).handleGet [entity, id.1] httpResponse)
      (ledger.fakeStatus (.get entity id)) (ledger.step (.get entity id)) := by
  have hexists := hshadows.exec_exists_entity hslash
  have hread : (FakeFileSystem.readFile (dataPath ++ '/' :: entity ++ '/' :: id.1)).exec fake =
      (.ok ((ledger.store.get? entity id).map
        fun _ => "Read file successfully\n".toList), fake) := hshadows.exec_readFile id
  rw [handleGet_file, filePath_eq_entityPath, entityPath_eq, Ledger.step_get,
    Ledger.fakeStatus_get]
  cases hget : ledger.store.get? entity id with
  | some body =>
      have hopened := hshadows.stored entity (NestedMap.mem_of_get? hget)
      rw [decide_eq_true hopened] at hexists
      rw [hget] at hread
      rw [CrudStore.step, hget]
      refine .of_exec (respond true .ok "Read file successfully\n".toList httpResponse) ?_
        rfl hshadows
      exact (Act.exec_bind_ok hexists).trans (Act.exec_bind_ok hread)
  | none =>
      rw [hget] at hread
      rw [CrudStore.step, hget]
      by_cases hopened : entity ∈ ledger.opened
      · rw [decide_eq_true hopened] at hexists
        refine .of_exec (respond false .badRequest
          "Requested ID does not exist\n".toList httpResponse) ?_ rfl hshadows
        exact (Act.exec_bind_ok hexists).trans (Act.exec_bind_ok hread)
      · rw [decide_eq_false hopened] at hexists
        refine .of_exec (respond false .badRequest "Invalid entity requested\n".toList
          httpResponse) ?_ rfl hshadows
        exact Act.exec_bind_ok hexists

theorem fakePerforms_handleGet_deep (hslash : '/' ∉ entity) (fileName next : Str)
    (rest : List Str) (httpResponse : Response) :
    FakePerforms dataPath fake
      ((overFake location dataPath).handleGet (entity :: fileName :: next :: rest)
        httpResponse)
      (ledger.fakeStatus .other) (ledger.step .other) := by
  have hexists := hshadows.exec_exists_entity hslash
  rw [handleGet_deep, entityPath_eq, Ledger.step_other]
  by_cases hopened : entity ∈ ledger.opened
  · rw [decide_eq_true hopened] at hexists
    refine .of_exec (respond false .badRequest
      "Not a valid API request target for GET\n".toList httpResponse) ?_ rfl hshadows
    exact Act.exec_bind_ok hexists
  · rw [decide_eq_false hopened] at hexists
    refine .of_exec (respond false .badRequest "Invalid entity requested\n".toList
      httpResponse) ?_ rfl hshadows
    exact Act.exec_bind_ok hexists

theorem fakePerforms_handleDelete (id : FileNo) (httpResponse : Response) :
    FakePerforms dataPath fake
      ((overFake location dataPath).handleDelete [entity, id.1] httpResponse)
      (ledger.fakeStatus (.delete entity id)) (ledger.step (.delete entity id)) := by
  have hregular : (FakeFileSystem.isRegularFile
      (dataPath ++ '/' :: entity ++ '/' :: id.1)).exec fake = (.ok true, fake) := rfl
  have hremove : (FakeFileSystem.remove (dataPath ++ '/' :: entity ++ '/' :: id.1)).exec fake =
      (.ok (ledger.store.get? entity id).isSome,
        ⟨fake.ffs.erase (dataPath ++ '/' :: entity ++ '/' :: id.1)⟩) := hshadows.exec_remove id
  rw [handleDelete_file, filePath_eq_entityPath, entityPath_eq, Ledger.fakeStatus_delete,
    Ledger.step_delete, CrudStore.step]
  cases hget : ledger.store.get? entity id with
  | some body =>
      rw [hget] at hremove
      refine .of_exec (respond true .ok "Successfully deleted ID\n".toList httpResponse) ?_
        rfl (hshadows.erase id)
      refine (Act.exec_bind_ok hregular).trans ?_
      rw [if_neg (by simp)]
      exact Act.exec_bind_ok hremove
  | none =>
      have habsent : dataPath ++ '/' :: entity ++ '/' :: id.1 ∉ fake.ffs.keys :=
        fun hmem => (hshadows.mem_file_iff id).mp hmem hget
      have hsame : Shadows dataPath
          ⟨fake.ffs.erase (dataPath ++ '/' :: entity ++ '/' :: id.1)⟩ ledger := by
        refine hshadows.congr fun path => ?_
        rw [OrderedMap.mem_keys_erase]
        exact and_iff_right_of_imp fun hpath heq => habsent (heq ▸ hpath)
      rw [hget] at hremove
      refine .of_exec (respond false .badRequest
        "Could not delete requested ID\n".toList httpResponse) ?_ rfl hsame
      refine (Act.exec_bind_ok hregular).trans ?_
      rw [if_neg (by simp)]
      exact Act.exec_bind_ok hremove

/-- A request that is turned away changes nothing. -/
theorem fakePerforms_other {act : Act FakeFileSystem (Bool × Response)}
    {httpResponse : Response} {text : Str}
    (hact : act = pure (respond false .badRequest text httpResponse)) :
    FakePerforms dataPath fake act (ledger.fakeStatus .other) (ledger.step .other) := by
  rw [hact, Ledger.step_other]
  exact .of_exec _ rfl rfl hshadows

end Operations

end ApiHandler

/-- A request as the file system reads its body, up to the first NUL. -/
def Request.cBody (httpRequest : Request) : Request :=
  { httpRequest with body := cStr httpRequest.body }

/-- What the comparison asks of a request: an entity that is a name, and for a POST
ids whose successors are `int`s. -/
structure CrudStore.Accepts (store : CrudStore) (httpRequest : Request) : Prop where
  entity : ∃ entity rest, behindLocation httpRequest.target = entity :: rest ∧
    IsName entity
  room : httpRequest.method = "POST".toList → ∀ entity,
    behindLocation httpRequest.target = [entity] →
      ∀ id ∈ store.keys entity, (decimal id.1 : Int) < intMax

theorem CrudStore.Accepts.admits {store : CrudStore} {httpRequest : Request}
    (haccepts : store.Accepts httpRequest) : store.Admits httpRequest.cBody :=
  ⟨haccepts.entity, nul_not_mem_cStr httpRequest.body, haccepts.room⟩

namespace ApiHandler

/-- One request does to the fake what its operation does to the ledger. -/
theorem fakePerforms_handleRequest (location : Str) {dataPath : Str} {fake : FakeFileSystem}
    {ledger : Ledger} (hshadows : Shadows dataPath fake ledger) {httpRequest : Request}
    (httpResponse : Response) (haccepts : ledger.store.Accepts httpRequest) :
    FakePerforms dataPath fake
      ((overFake location dataPath).handleRequest httpRequest httpResponse)
      (ledger.fakeStatus (Operation.ofRequest httpRequest.cBody))
      (ledger.step (Operation.ofRequest httpRequest.cBody)) := by
  obtain ⟨entity, rest, hbehind, -⟩ := haccepts.entity
  obtain ⟨hne, hslash, -⟩ :=
    mem_of_split (split_of_behindLocation hbehind) List.mem_cons_self
  have hhandles : Handles (overFake location dataPath) httpRequest.cBody httpResponse entity
      ((overFake location dataPath).handleRequest httpRequest httpResponse)
      (Operation.ofRequest httpRequest.cBody) :=
    handles_handleRequest (overFake location dataPath) httpResponse hbehind
  generalize (overFake location dataPath).handleRequest httpRequest httpResponse = act
    at hhandles ⊢
  generalize Operation.ofRequest httpRequest.cBody = operation at hhandles ⊢
  cases hhandles with
  | post hmethod hbehind =>
      exact fakePerforms_handlePost location hshadows hslash
        (haccepts.room hmethod entity hbehind) _ _ httpResponse
  | list => exact fakePerforms_handleGet_entity location hshadows hslash httpResponse
  | get id => exact fakePerforms_handleGet_file location hshadows hslash id httpResponse
  | put id => exact fakePerforms_handlePut location hshadows hne hslash id _ _ httpResponse
  | delete id => exact fakePerforms_handleDelete location hshadows id httpResponse
  | deep name next rest =>
      exact fakePerforms_handleGet_deep location hshadows hslash name next rest httpResponse
  | rejected text => exact fakePerforms_other hshadows rfl

section RealBody

variable (location dataPath : Str) (host : Host) (uri : List Str) (httpRequest : Request)
  (httpResponse : Response)

theorem handlePost_cBody :
    (real location dataPath host).handlePost uri httpRequest.cBody httpResponse =
      (real location dataPath host).handlePost uri httpRequest httpResponse := by
  have hgen : ∀ path, (realFileSystem host).genIdAndWriteFile path (cStr httpRequest.body) =
      (realFileSystem host).genIdAndWriteFile path httpRequest.body := by
    intro path
    change RealFileSystem.genIdAndWriteFile _ _ _ = RealFileSystem.genIdAndWriteFile _ _ _
    simp only [RealFileSystem.genIdAndWriteFile, cStr_cStr]
  simp only [handlePost, Request.cBody, real, hgen]

theorem handlePut_cBody :
    (real location dataPath host).handlePut uri httpRequest.cBody httpResponse =
      (real location dataPath host).handlePut uri httpRequest httpResponse := by
  have hwrite : ∀ path, (realFileSystem host).writeFile path (cStr httpRequest.body) =
      (realFileSystem host).writeFile path httpRequest.body := by
    intro path
    change RealFileSystem.writeFile _ _ _ = RealFileSystem.writeFile _ _ _
    simp only [RealFileSystem.writeFile, cStr_cStr]
  simp only [handlePut, Request.cBody, real, hwrite]

/-- The real file system does not see a body behind its first NUL. -/
theorem handleRequest_cBody :
    (real location dataPath host).handleRequest httpRequest.cBody httpResponse =
      (real location dataPath host).handleRequest httpRequest httpResponse := by
  simp only [handleRequest, dispatch, handlePost_cBody, handlePut_cBody]
  rfl

end RealBody

end ApiHandler

/-- The status of an outcome, if there is an answer. -/
def statusOf (outcome : Except Fault (Bool × Response)) : Option Status :=
  match outcome with
  | .ok reply => some reply.2.result
  | .error _ => none

theorem Answer.Shown.statusOf_eq {answer : Answer} {outcome : Except Fault (Bool × Response)}
    (hshown : answer.Shown outcome) : statusOf outcome = some answer.status := by
  obtain ⟨reply, rfl, hshows⟩ := hshown
  cases answer with
  | stored id => exact congrArg some hshows.1
  | content body => exact congrArg some hshows.1
  | listing ids => exact congrArg some hshows.1
  | deleted => exact congrArg some hshows
  | rejected => exact congrArg some hshows

/-- The request lists an entity whose ids have all been deleted again. -/
def Ledger.ListsEmptied (ledger : Ledger) (httpRequest : Request) : Prop :=
  httpRequest.method = "GET".toList ∧ ∃ entity,
    behindLocation httpRequest.target = [entity] ∧ entity ∈ ledger.opened ∧
      entity ∉ ledger.store

theorem ofRequest_eq_list_iff (httpRequest : Request) (entity : Str) :
    Operation.ofRequest httpRequest = .list entity ↔
      httpRequest.method = "GET".toList ∧
        behindLocation httpRequest.target = [entity] := by
  rw [Operation.ofRequest]
  rcases behindLocation httpRequest.target with _ | ⟨first, _ | ⟨name, _ | ⟨next, rest⟩⟩⟩
  · simp [Operation.ofSegments]
  · rw [Operation.ofSegments]
    split_ifs with hpost hget
    · exact iff_of_false (by simp) fun h => absurd (hpost.symm.trans h.1) (by decide)
    · simp [hget]
    · exact iff_of_false (by simp) fun h => hget h.1
  · simp only [Operation.ofSegments, List.cons.injEq, reduceCtorEq, and_false, iff_false]
    split_ifs <;> simp
  · simp [Operation.ofSegments]

/-- The two file systems show the same status unless an emptied entity is listed. -/
theorem Ledger.status_eq_fakeStatus_iff {ledger : Ledger}
    (hstored : ∀ entity ∈ ledger.store, entity ∈ ledger.opened) (httpRequest : Request) :
    (ledger.store.step (Operation.ofRequest httpRequest.cBody)).1.status =
        ledger.fakeStatus (Operation.ofRequest httpRequest.cBody) ↔
      ¬ ledger.ListsEmptied httpRequest := by
  have hlist := ofRequest_eq_list_iff httpRequest.cBody
  cases hoperation : Operation.ofRequest httpRequest.cBody with
  | list entity =>
      obtain ⟨hget, hbehind⟩ := (hlist entity).mp hoperation
      have hempties : ledger.ListsEmptied httpRequest ↔
          entity ∈ ledger.opened ∧ entity ∉ ledger.store := by
        constructor
        · rintro ⟨-, other, hother, hopened⟩
          have heq := hother.symm.trans hbehind
          rw [List.cons.injEq] at heq
          rwa [heq.1] at hopened
        · exact fun hopened => ⟨hget, entity, hbehind, hopened⟩
      rw [hempties, CrudStore.step, Ledger.fakeStatus]
      by_cases hstore : entity ∈ ledger.store
      · simp [hstore, hstored entity hstore, Answer.status]
      · by_cases hopened : entity ∈ ledger.opened <;>
          simp [hstore, hopened, Answer.status]
  | _ =>
      refine iff_of_true rfl ?_
      rintro ⟨hget, entity, hbehind, -⟩
      have heq := hoperation.symm.trans ((hlist entity).mpr ⟨hget, hbehind⟩)
      cases heq

namespace ApiHandler

/-- One handler over the fake file system that is asked again and again. -/
def fakeMachine (location dataPath : Str) :
    Machine FakeFileSystem (WorkingHost × Request) (Except Fault (Bool × Response)) where
  step fake input :=
    ((overFake location dataPath).handleRequest input.2 Response.empty).exec fake

/-- The ledger of the requests. -/
def ledgerMachine : Machine Ledger (WorkingHost × Request) Answer where
  step ledger input :=
    let operation := Operation.ofRequest input.2.cBody
    ((ledger.store.step operation).1, ledger.step operation)

/-- The fake machine answers with the status that the ledger foretells, and shadows
it. -/
theorem fakeMachine_step (location : Str) {dataPath : Str} {fake : FakeFileSystem}
    {ledger : Ledger} (hshadows : Shadows dataPath fake ledger)
    {input : WorkingHost × Request} (hinput : ledger.store.Accepts input.2) :
    statusOf ((fakeMachine location dataPath).step fake input).1 =
        some (ledger.fakeStatus (Operation.ofRequest input.2.cBody)) ∧
      Shadows dataPath ((fakeMachine location dataPath).step fake input).2
        (ledger.step (Operation.ofRequest input.2.cBody)) := by
  obtain ⟨reply, later, hexec, hresult, hlater⟩ :=
    fakePerforms_handleRequest location hshadows Response.empty hinput
  have hstep : (fakeMachine location dataPath).step fake input = (.ok reply, later) := hexec
  rw [hstep, ← hresult]
  exact ⟨rfl, hlater⟩

/-- From an empty store the API over the fake file system and the API over the real
one answer a run of requests with the same statuses exactly if no request of it lists
an entity whose ids have all been deleted again. -/
theorem statuses_eq_iff (location : Str) {start : Disk} {dataPath : Str} {root : List Str}
    (hstart : EmptyDirectory start dataPath root) (inputs : List (WorkingHost × Request))
    (haccepts : ledgerMachine.Guarded (fun ledger input => ledger.store.Accepts input.2)
      ⟨∅, ∅⟩ inputs) :
    ((apiMachine location dataPath).trace start inputs).map
        (fun answer => statusOf answer.1) =
      ((fakeMachine location dataPath).trace ⟨OrderedMap.empty⟩ inputs).map
        (fun answer => statusOf answer.1) ↔
      ledgerMachine.Guarded (fun ledger input => ¬ ledger.ListsEmptied input.2)
        ⟨∅, ∅⟩ inputs := by
  have hreal : ∀ (disk : Disk) (ledger : Ledger) (input : WorkingHost × Request),
      Holds start root disk ledger.store → ledger.store.Accepts input.2 →
        Performs start root disk
          ((real location dataPath input.1).handleRequest input.2 Response.empty)
          (ledger.store.step (Operation.ofRequest input.2.cBody)) := by
    intro disk ledger input hholds hinput
    rw [← handleRequest_cBody]
    exact performs_handleRequest input.1.2 location hstart hholds hinput.admits Response.empty
  apply Machine.map_trace_eq_iff_guarded (R := fun disk fake ledger =>
    Holds start root disk ledger.store ∧ Shadows dataPath fake ledger)
  · rintro disk fake ledger input ⟨hholds, hshadows⟩ hinput
    have hstatus := (hreal disk ledger input hholds hinput).1.statusOf_eq
    rw [(fakeMachine_step location hshadows hinput).1]
    refine (Eq.congr_left hstatus).trans ?_
    rw [Option.some.injEq]
    exact Ledger.status_eq_fakeStatus_iff hshadows.stored input.2
  · rintro disk fake ledger input ⟨hholds, hshadows⟩ hinput
    exact ⟨(hreal disk ledger input hholds hinput).2,
      (fakeMachine_step location hshadows hinput).2⟩
  · exact ⟨Holds.empty hstart, Shadows.empty dataPath⟩
  · exact haccepts

end ApiHandler

namespace FakeAgreementWitness

open DataDirectoryWitness CrudRefinementWitness

def getRequest : Request := ⟨"GET".toList, "/api/shoes".toList, []⟩

theorem accepts_post {store : CrudStore} (hstore : store.keys "shoes".toList = ∅) :
    store.Accepts postRequest :=
  ⟨(admits_post hstore).entity, (admits_post hstore).room⟩

theorem accepts_delete (store : CrudStore) : store.Accepts deleteRequest :=
  ⟨(admits_delete store).entity, (admits_delete store).room⟩

theorem accepts_get (store : CrudStore) : store.Accepts getRequest :=
  ⟨⟨"shoes".toList, [], by decide +kernel, by decide⟩, fun h => absurd h (by decide)⟩

/-- Storing and deleting is answered alike. -/
theorem statuses_eq_inputs :
    ((apiMachine location dataPath).trace disk inputs).map
        (fun answer => statusOf answer.1) =
      ((ApiHandler.fakeMachine location dataPath).trace ⟨OrderedMap.empty⟩ inputs).map
        (fun answer => statusOf answer.1) := by
  apply (ApiHandler.statuses_eq_iff location emptyDirectory_disk inputs
    ⟨accepts_post rfl, accepts_delete _, trivial⟩).mpr
  refine ⟨?_, ?_, trivial⟩
  · exact fun hlists => absurd hlists.1 (by decide)
  · exact fun hlists => absurd hlists.1 (by decide)

/-- A list of the entity is refused by the real file system after that, and given by
the fake. -/
theorem statuses_ne_emptied :
    ApiHandler.ledgerMachine.Guarded (fun ledger input => ledger.store.Accepts input.2)
        ⟨∅, ∅⟩ (inputs ++ [(host, getRequest)]) ∧
      ((apiMachine location dataPath).trace disk (inputs ++ [(host, getRequest)])).map
          (fun answer => statusOf answer.1) ≠
        ((ApiHandler.fakeMachine location dataPath).trace ⟨OrderedMap.empty⟩
          (inputs ++ [(host, getRequest)])).map (fun answer => statusOf answer.1) := by
  refine ⟨⟨accepts_post rfl, accepts_delete _, accepts_get _, trivial⟩, ?_⟩
  have hreal : ((apiMachine location dataPath).trace disk
      (inputs ++ [(host, getRequest)])).map (fun answer => statusOf answer.1) =
        [some .ok, some .ok, some .badRequest] := rfl
  have hfake : ((ApiHandler.fakeMachine location dataPath).trace ⟨OrderedMap.empty⟩
      (inputs ++ [(host, getRequest)])).map (fun answer => statusOf answer.1) =
        [some .ok, some .ok, some .ok] := rfl
  rw [hreal, hfake]
  decide

end FakeAgreementWitness

end SwanServer
