/-
What success says about a file.  Once its file is open a write is reported as
done: `fputs` is given a C string, and what `fputs`, `fflush` and `fclose` return
is not looked at.
-/
import SwanServer.BufferedWrite
import SwanServer.DataDirectory

namespace SwanServer

open BufferedWrite FileTree

/-- How the three calls on an open file go: how much of its text `fputs` takes,
and how much `fputs`, `fflush` and `fclose` move on to the file. -/
structure StdioOutcome where
  taken : Nat
  spilled : Nat
  flushed : Nat
  closed : Nat

namespace StdioOutcome

variable (outcome : StdioOutcome) (text : Str)

/-- What the file holds after `fputs`, `fflush` and `fclose`. -/
def content : Str :=
  let fp := (BufferedFile.opened.put outcome.taken text).drain outcome.spilled
  let fp := fp.drain outcome.flushed
  let fp := fp.drain outcome.closed
  fp.file

/-- Nothing of a text is lost in the calls. -/
def Complete : Prop :=
  text.length ≤ outcome.taken ∧
    text.length ≤ outcome.spilled + outcome.flushed + outcome.closed

instance : Decidable (outcome.Complete text) :=
  inferInstanceAs (Decidable (_ ∧ _))

theorem content_eq :
    outcome.content text =
      text.take (min (outcome.spilled + outcome.flushed + outcome.closed) outcome.taken) := by
  simp only [content, BufferedFile.drain_drain, BufferedFile.file_drain_put]

theorem content_eq_self_iff : outcome.content text = text ↔ outcome.Complete text := by
  rw [content_eq, List.take_eq_self_iff, le_min_iff, and_comm]
  rfl

end StdioOutcome

/-- The host on which the calls on open files go as given. -/
def Host.withStdio (host : Host) (outcome : Str → StdioOutcome) : Host :=
  { host with
    written := fun text => (outcome text).content text
    written_prefix := by
      intro text
      rw [StdioOutcome.content_eq]
      exact List.take_prefix _ _ }

/-- Every host is one of these. -/
theorem Host.exists_withStdio_eq (host : Host) : ∃ outcome, host.withStdio outcome = host := by
  let outcome : Str → StdioOutcome := fun text =>
    ⟨(host.written text).length, 0, (host.written text).length, 0⟩
  have hwritten : (fun text => (outcome text).content text) = host.written := by
    funext text
    rw [StdioOutcome.content_eq]
    simpa [outcome] using (List.prefix_iff_eq_take.mp (host.written_prefix text)).symm
  refine ⟨outcome, ?_⟩
  obtain ⟨works, written, written_prefix, listing, listing_perm⟩ := host
  simp only [Host.withStdio, Host.mk.injEq, true_and, and_true]
  exact hwritten

/-- The calls that report a body as stored, with the file that it should be in:
`write_file` returns true, `gen_id_and_write_file` returns another id than -1, or
PUT or POST is answered with 200. -/
inductive ReportsStored (host : Host) (disk : Disk) (body : Str) : Str → Disk → Prop where
  | writeFile {filePath : Str} {later : Disk}
      (hexec : (RealFileSystem.writeFile host filePath body).exec disk = (.ok true, later)) :
      ReportsStored host disk body filePath later
  | genIdAndWriteFile {dirPath : Str} {id : Int} {later : Disk}
      (hexec : (RealFileSystem.genIdAndWriteFile host dirPath body).exec disk =
        (.ok id, later))
      (hid : id ≠ -1) :
      ReportsStored host disk body (dirPath ++ '/' :: toStringInt id) later
  | put {location dataPath entity fileName : Str} {httpRequest : Request}
      {httpResponse : Response} {reply : Bool × Response} {later : Disk}
      (hmethod : httpRequest.method = "PUT".toList) (hbody : httpRequest.body = body)
      (huri : split (cStr httpRequest.target) '/' = .ok [entity, fileName])
      (hexec : ((ApiHandler.real location dataPath host).handleRequest httpRequest
        httpResponse).exec disk = (.ok reply, later))
      (hok : reply.2.result = .ok) :
      ReportsStored host disk body
        ((ApiHandler.real location dataPath host).filePath entity fileName) later
  | post {location dataPath entity : Str} {httpRequest : Request}
      {httpResponse : Response} {reply : Bool × Response} {id : Int} {later : Disk}
      (hmethod : httpRequest.method = "POST".toList) (hbody : httpRequest.body = body)
      (huri : split (cStr httpRequest.target) '/' = .ok [entity])
      (hexec : ((ApiHandler.real location dataPath host).handleRequest httpRequest
        httpResponse).exec disk = (.ok reply, later))
      (hok : reply.2.result = .ok)
      (hid : reply.2.body = ApiHandler.idResponse (toStringInt id)) :
      ReportsStored host disk body
        ((ApiHandler.real location dataPath host).filePath entity (toStringInt id)) later

namespace Disk

variable {disk : Disk} {path : Str} {place : List Str}

/-- An opened file is found again under its path, with what was written to it. -/
theorem status_written {host : Host} (hopens : disk.opens host path = some place)
    (content : Str) : (disk.written place content).status path = some (.file content) := by
  have hopen := (opens_eq_some_iff.mp hopens).2
  have hdirectory := isDirectory_of_openable hopen
  have hresolve : disk.resolve path = some place := by
    rw [openable] at hopen
    cases hresolve : disk.resolve path with
    | none =>
        rw [hresolve] at hopen
        cases hopen
    | some other =>
        simp only [hresolve] at hopen
        split_ifs at hopen
        exact hopen
  rw [status_of_resolve ((extends_written hdirectory content).resolve hresolve),
    node?_written (ne_nil_of_isDirectory hdirectory), if_pos rfl]

end Disk

section Reports

variable {host : Host} {disk later : Disk} {body : Str}

/-- Where `write_file` returns true its file holds what the host wrote. -/
theorem status_of_writeFile {filePath : Str}
    (hexec : (RealFileSystem.writeFile host filePath body).exec disk = (.ok true, later)) :
    later.status filePath = some (.file (host.written (cStr body))) := by
  cases hresolve : disk.resolve (parentPath filePath) with
  | none =>
      rw [RealFileSystem.exec_writeFile_of_resolve_none host hresolve] at hexec
      cases hexec
  | some dir =>
      rw [RealFileSystem.writeFile_spec host hresolve] at hexec
      split at hexec
      · cases hexec
      · split at hexec
        · next place hopens =>
            cases hexec
            exact Disk.status_written hopens _
        · cases hexec

/-- Where `gen_id_and_write_file` returns an id the file of that id holds what the
host wrote. -/
theorem status_of_genIdAndWriteFile {dirPath : Str} {id : Int}
    (hexec : (RealFileSystem.genIdAndWriteFile host dirPath body).exec disk = (.ok id, later))
    (hid : id ≠ -1) :
    later.status (dirPath ++ '/' :: toStringInt id) =
      some (.file (host.written (cStr body))) := by
  cases hresolve : disk.resolve dirPath with
  | none =>
      rw [RealFileSystem.exec_genIdAndWriteFile_of_resolve_none host hresolve] at hexec
      cases hexec
  | some dir =>
      rw [RealFileSystem.genIdAndWriteFile_spec host hresolve] at hexec
      split at hexec
      · cases hexec
      split at hexec
      · split at hexec
        · cases hexec
        split at hexec
        · next place hopens =>
            cases hexec
            exact Disk.status_written hopens _
        · cases hexec
          contradiction
      · cases hexec

section Answers

variable {location dataPath entity : Str} {httpRequest : Request} {httpResponse : Response}
  {reply : Bool × Response}

/-- Where PUT is answered with 200 the file that it names holds what the host
wrote. -/
theorem status_of_put {fileName : Str} (hmethod : httpRequest.method = "PUT".toList)
    (huri : split (cStr httpRequest.target) '/' = .ok [entity, fileName])
    (hexec : ((ApiHandler.real location dataPath host).handleRequest httpRequest
      httpResponse).exec disk = (.ok reply, later))
    (hok : reply.2.result = .ok) :
    later.status ((ApiHandler.real location dataPath host).filePath entity fileName) =
      some (.file (host.written (cStr httpRequest.body))) := by
  cases hnumber : isFileNumber [entity, fileName] with
  | false =>
      rw [ApiHandler.handleRequest_of_not_isFileNumber _ _ huri hnumber, Act.exec_pure] at hexec
      cases hexec
      contradiction
  | true =>
      rw [ApiHandler.handleRequest_of_isFileNumber _ _ huri hnumber,
        ApiHandler.dispatch_put _ _ _ hmethod, ApiHandler.handlePut_file] at hexec
      obtain ⟨success, middle, hwrite, hreply⟩ := Act.exists_of_bind_eq_ok hexec
      cases success with
      | false =>
          cases hreply
          contradiction
      | true =>
          cases hreply
          exact status_of_writeFile hwrite

/-- Where POST is answered with 200 the file of the id in the answer holds what the
host wrote. -/
theorem status_of_post {id : Int} (hmethod : httpRequest.method = "POST".toList)
    (huri : split (cStr httpRequest.target) '/' = .ok [entity])
    (hexec : ((ApiHandler.real location dataPath host).handleRequest httpRequest
      httpResponse).exec disk = (.ok reply, later))
    (hok : reply.2.result = .ok)
    (hid : reply.2.body = ApiHandler.idResponse (toStringInt id)) :
    later.status ((ApiHandler.real location dataPath host).filePath entity (toStringInt id)) =
      some (.file (host.written (cStr httpRequest.body))) := by
  rw [ApiHandler.handleRequest_of_isFileNumber _ _ huri rfl,
    ApiHandler.dispatch_post _ _ _ hmethod, ApiHandler.handlePost_entity] at hexec
  obtain ⟨other, middle, hwrite, hreply⟩ := Act.exists_of_bind_eq_ok hexec
  by_cases hother : other = -1
  · rw [if_pos hother] at hreply
    cases hreply
    contradiction
  · rw [if_neg hother, Act.exec_pure] at hreply
    have hbody : reply.2.body = ApiHandler.idResponse (toStringInt other) := by
      rw [← Except.ok.inj (Prod.mk.inj hreply).1, ApiHandler.respond, setResponse_body]
    have hlater : middle = later := (Prod.mk.inj hreply).2
    have htext : toStringInt other = toStringInt id :=
      ApiHandler.idResponse_injective (hbody.symm.trans hid)
    subst hlater
    have hstatus := status_of_genIdAndWriteFile hwrite hother
    rw [htext] at hstatus
    have hpath : (ApiHandler.real location dataPath host).filePath entity (toStringInt id) =
        (ApiHandler.real location dataPath host).entityPath entity ++ '/' :: toStringInt id := by
      rw [ApiHandler.filePath, List.append_assoc]
      rfl
    rw [hpath]
    exact hstatus

end Answers

/-- What is reported as stored is what the host wrote of the body up to a NUL. -/
theorem ReportsStored.status {path : Str} (hreports : ReportsStored host disk body path later) :
    later.status path = some (.file (host.written (cStr body))) := by
  cases hreports with
  | writeFile hexec => exact status_of_writeFile hexec
  | genIdAndWriteFile hexec hid => exact status_of_genIdAndWriteFile hexec hid
  | put hmethod hbody huri hexec hok => exact hbody ▸ status_of_put hmethod huri hexec hok
  | post hmethod hbody huri hexec hok hid =>
      exact hbody ▸ status_of_post hmethod huri hexec hok hid

end Reports

/-- A front of a text up to a NUL is the text exactly if it has no NUL and the front
is all of it. -/
theorem written_cStr_eq_iff (host : Host) (body : Str) :
    host.written (cStr body) = body ↔ nul ∉ body ∧ host.written body = body := by
  constructor
  · intro hwritten
    have hstarts : body <+: cStr body := by
      have hprefix := host.written_prefix (cStr body)
      rwa [hwritten] at hprefix
    have hsame : cStr body = body :=
      (hstarts.eq_of_length_le (List.takeWhile_prefix _).length_le).symm
    rw [hsame] at hwritten
    exact ⟨hsame ▸ nul_not_mem_cStr body, hwritten⟩
  · rintro ⟨hnul, hwritten⟩
    rw [cStr_eq_self hnul, hwritten]

/-- A body that is reported as stored is in its file exactly if it has no NUL and
the calls on the open file lose nothing of it. -/
theorem stored_iff_complete {host : Host} {outcome : Str → StdioOutcome} {disk later : Disk}
    {body path : Str}
    (hreports : ReportsStored (host.withStdio outcome) disk body path later) :
    later.status path = some (.file body) ↔ nul ∉ body ∧ (outcome body).Complete body := by
  have hcontent : (host.withStdio outcome).written body = body ↔
      (outcome body).Complete body := (outcome body).content_eq_self_iff body
  rw [hreports.status, ← hcontent, ← written_cStr_eq_iff]
  simp

namespace StoredWritesWitness

/-- Every call takes or moves all of its text. -/
def complete : Str → StdioOutcome := fun text => ⟨text.length, 0, text.length, 0⟩

def host : Host := workingHost.withStdio complete

/-- The working directory holds a directory for the entity. -/
def disk : Disk := ⟨(⟨∅⟩ : FileTree.Tree Str Str).put ["Shoes".toList] .directory, []⟩

def filePath : Str := "Shoes/1".toList

/-- The disk after a text has reached the file. -/
def later (content : Str) : Disk := disk.written ["Shoes".toList, "1".toList] content

theorem exec_writeFile (body : Str) :
    (RealFileSystem.writeFile host filePath body).exec disk =
      (.ok true, later (host.written (cStr body))) := by
  have hresolve : disk.resolve (parentPath filePath) = some ["Shoes".toList] := rfl
  have hensured : disk.ensured ["Shoes".toList] = disk := rfl
  have hopens : disk.opens host filePath = some ["Shoes".toList, "1".toList] := rfl
  rw [RealFileSystem.writeFile_spec host hresolve, if_neg (fun hfails => nomatch hfails.2),
    hensured, hopens]
  rfl

theorem stored_red : (later "red".toList).status filePath = some (.file "red".toList) := by
  have hreports : ReportsStored host disk "red".toList filePath (later "red".toList) :=
    .writeFile (exec_writeFile "red".toList)
  exact (stored_iff_complete hreports).mpr (by decide)

/-- A body with a NUL in it. -/
def body : Str := ['a', nul, 'b']

/-- It is reported as stored, and its file holds what stands before the NUL. -/
theorem truncates_nul :
    ReportsStored host disk body filePath (later "a".toList) ∧
      (later "a".toList).status filePath = some (.file "a".toList) ∧
      (later "a".toList).status filePath ≠ some (.file body) := by
  have hreports : ReportsStored host disk body filePath (later "a".toList) :=
    .writeFile (exec_writeFile body)
  have hstatus := hreports.status
  have hheld : host.written (cStr body) = "a".toList := rfl
  rw [hheld] at hstatus
  refine ⟨hreports, hstatus, ?_⟩
  rw [hstatus]
  decide

end StoredWritesWitness

end SwanServer
