/-
`FakeFileSystem`, which stands in for the disk in the tests of the API handler:
a set of path strings.  Files have no contents, and nothing tells a file from a
directory.
-/
import SwanServer.FileSystem
import SwanServer.OrderedMap

namespace SwanServer

/-- `class FakeFileSystem`: `ffs`, a `std::set` of paths. -/
structure FakeFileSystem where
  ffs : OrderedMap Str Unit

/-- `substr(0, i)` and `substr(i + 1)` for `i = find_last_of("/")`.  Without a slash
`i` is -1, and both are the whole text. -/
def cutAtLastSlash (filePath : Str) : Str × Str :=
  if '/' ∈ filePath then
    ((filePath.reverse.dropWhile (· ≠ '/')).tail.reverse,
      (filePath.reverse.takeWhile (· ≠ '/')).reverse)
  else (filePath, filePath)

theorem cutAtLastSlash_append {dir name : Str} (hname : '/' ∉ name) :
    cutAtLastSlash (dir ++ '/' :: name) = (dir, name) := by
  have hpos : ∀ c ∈ name.reverse, decide (c ≠ '/') = true := by
    intro c hc
    have hne : c ≠ '/' := fun heq => hname (heq ▸ List.mem_reverse.mp hc)
    simpa using hne
  have hreverse : (dir ++ '/' :: name).reverse = name.reverse ++ '/' :: dir.reverse := by
    simp
  rw [cutAtLastSlash, if_pos (by simp), hreverse, List.dropWhile_append_of_pos hpos,
    List.takeWhile_append_of_pos hpos]
  simp

namespace FakeFileSystem

/-- The loop of `get_unique_file_name` and `get_file_list`: of all paths but the
directory itself, what follows the last slash where `p` stands before it. -/
def idsBelow (fake : FakeFileSystem) (p : Str) : List Str :=
  fake.ffs.keys.filterMap fun filePath =>
    if filePath = p then none
    else if (cutAtLastSlash filePath).1 = p then some (cutAtLastSlash filePath).2
    else none

/-- The largest number among the ids, or the fault of `stoi`. -/
def largestFile : Int → List Str → Except Fault Int
  | largest, [] => .ok largest
  | largest, id :: rest =>
      match stoi id with
      | .error fault => .error fault
      | .ok number => largestFile (if largest < number then number else largest) rest

/-- `FakeFileSystem::get_unique_file_name`. -/
def getUniqueFileName (p : Str) : Act FakeFileSystem Int :=
  Act.attempt fun fake =>
    match largestFile 0 (fake.idsBelow p) with
    | .error fault => (.error fault, fake)
    | .ok largest => (.ok (wrapInt (largest + 1)), fake)

/-- `ffs.find(p) != ffs.end()`. -/
def contains (fake : FakeFileSystem) (p : Str) : Bool := (fake.ffs.find? p).isSome

/-- `FakeFileSystem::exists`. -/
def pathExists (p : Str) : Act FakeFileSystem Bool :=
  Act.attempt fun fake => (.ok (fake.contains p), fake)

/-- `ffs.insert`: whether the path is new. -/
def insert (p : Str) : Act FakeFileSystem Bool :=
  Act.attempt fun fake => (.ok (!fake.contains p), ⟨fake.ffs.insert p ()⟩)

/-- `FakeFileSystem::create_directory`. -/
def createDirectory (p : Str) : Act FakeFileSystem Bool := insert p

/-- `FakeFileSystem::is_regular_file`. -/
def isRegularFile (_p : Str) : Act FakeFileSystem Bool := return true

/-- `FakeFileSystem::remove`. -/
def remove (p : Str) : Act FakeFileSystem Bool :=
  Act.attempt fun fake => (.ok (fake.contains p), ⟨fake.ffs.erase p⟩)

/-- Create a directory unless the path exists. -/
def ensureDirectory (p : Str) : Act FakeFileSystem Unit := do
  if (← pathExists p) = false then
    let _ ← createDirectory p

/-- `FakeFileSystem::write_file`. -/
def writeFile (filePath _body : Str) : Act FakeFileSystem Bool := do
  ensureDirectory (parentPath filePath)
  let _ ← insert filePath
  return true

/-- `FakeFileSystem::gen_id_and_write_file`. -/
def genIdAndWriteFile (dirPath _body : Str) : Act FakeFileSystem Int := do
  ensureDirectory dirPath
  let id ← getUniqueFileName dirPath
  let _ ← insert (dirPath ++ "/".toList ++ toStringInt id)
  return id

/-- `FakeFileSystem::read_file`. -/
def readFile (p : Str) : Act FakeFileSystem (Option Str) := do
  if ← pathExists p then
    return some "Read file successfully\n".toList
  else
    return none

/-- `FakeFileSystem::get_file_list`. -/
def getFileList (p : Str) : Act FakeFileSystem Str :=
  Act.attempt fun fake =>
    let result := "[".toList ++ (fake.idsBelow p).flatMap fun id => id ++ ", ".toList
    let result := if 2 ≤ result.length then result.take (result.length - 2) else result
    (.ok (result ++ "]".toList), fake)

end FakeFileSystem

/-- The fake as the file system of a handler. -/
def fakeFileSystem : FileSystem FakeFileSystem where
  pathExists := FakeFileSystem.pathExists
  createDirectory := FakeFileSystem.createDirectory
  isRegularFile := FakeFileSystem.isRegularFile
  remove := FakeFileSystem.remove
  writeFile := FakeFileSystem.writeFile
  genIdAndWriteFile := FakeFileSystem.genIdAndWriteFile
  readFile := FakeFileSystem.readFile
  getFileList := FakeFileSystem.getFileList

namespace FakeFileSystem

variable {fake : FakeFileSystem}

theorem contains_iff {p : Str} : fake.contains p = true ↔ p ∈ fake.ffs.keys := by
  rw [contains, Option.isSome_iff_exists, OrderedMap.mem_keys]

theorem mem_idsBelow {p id : Str} :
    id ∈ fake.idsBelow p ↔
      ∃ filePath ∈ fake.ffs.keys, filePath ≠ p ∧ cutAtLastSlash filePath = (p, id) := by
  simp only [idsBelow, List.mem_filterMap]
  refine exists_congr fun filePath => and_congr_right fun _ => ?_
  rw [Prod.ext_iff]
  split
  · next heq => simp [heq]
  · next hne => split <;> simp_all

/-- On ids that are their own stems the fake finds the largest as the real file
system does. -/
theorem largestFile_eq {ids : List Str} (hstem : ∀ id ∈ ids, stem id = id) (start : Int) :
    largestFile start ids = SwanServer.largestFile start ids := by
  induction ids generalizing start with
  | nil => rfl
  | cons id rest ih =>
      rw [List.forall_mem_cons] at hstem
      rw [largestFile, SwanServer.largestFile, hstem.1]
      cases stoi id with
      | error fault => rfl
      | ok number => exact ih hstem.2 _

theorem exec_getUniqueFileName {p : Str} (hstem : ∀ id ∈ fake.idsBelow p, stem id = id) :
    (getUniqueFileName p).exec fake = (uniqueFileName (fake.idsBelow p), fake) := by
  rw [getUniqueFileName, Act.exec_attempt, largestFile_eq hstem, uniqueFileName]
  cases SwanServer.largestFile 0 (fake.idsBelow p) <;> rfl

/-- The fake once a directory is made sure of. -/
def ensured (fake : FakeFileSystem) (p : Str) : FakeFileSystem :=
  if fake.contains p then fake else ⟨fake.ffs.insert p ()⟩

theorem mem_keys_ensured (fake : FakeFileSystem) (p path : Str) :
    path ∈ (fake.ensured p).ffs.keys ↔ path = p ∨ path ∈ fake.ffs.keys := by
  rw [ensured]
  split
  · next hcontains =>
      constructor
      · exact Or.inr
      · rintro (rfl | hpath)
        · exact contains_iff.mp hcontains
        · exact hpath
  · exact OrderedMap.mem_keys_insert _ _ _ _

theorem exec_pathExists (fake : FakeFileSystem) (p : Str) :
    (pathExists p).exec fake = (.ok (fake.contains p), fake) := rfl

theorem exec_ensureDirectory (fake : FakeFileSystem) (p : Str) :
    (ensureDirectory p).exec fake = (.ok (), fake.ensured p) := by
  rw [ensureDirectory, Act.exec_bind_ok (exec_pathExists fake p), ensured]
  cases hcontains : fake.contains p with
  | true =>
      rw [if_neg (by simp), if_pos rfl]
      rfl
  | false =>
      rw [if_pos rfl, if_neg (by simp)]
      rfl

theorem exec_writeFile (fake : FakeFileSystem) (filePath body : Str) :
    (writeFile filePath body).exec fake =
      (.ok true, ⟨(fake.ensured (parentPath filePath)).ffs.insert filePath ()⟩) := by
  rw [writeFile, Act.exec_bind_ok (exec_ensureDirectory fake _)]
  rfl

theorem exec_genIdAndWriteFile {p : Str} {id : Int}
    (hunique : uniqueFileName ((fake.ensured p).idsBelow p) = .ok id)
    (hstem : ∀ id ∈ (fake.ensured p).idsBelow p, stem id = id) (body : Str) :
    (genIdAndWriteFile p body).exec fake =
      (.ok id, ⟨(fake.ensured p).ffs.insert (p ++ '/' :: toStringInt id) ()⟩) := by
  have hid := exec_getUniqueFileName hstem
  rw [hunique] at hid
  rw [genIdAndWriteFile, Act.exec_bind_ok (exec_ensureDirectory fake p),
    Act.exec_bind_ok hid, ← List.singleton_append, ← List.append_assoc]
  rfl

end FakeFileSystem

end SwanServer
