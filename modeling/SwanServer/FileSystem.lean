/-
The `FileSystem` interface that handlers use, and `RealFileSystem`, which works
on the disk.  Here one request runs at a time, so `file_creation_mutex_` is free
whenever it is taken and does not appear.
-/
import SwanServer.Disk

namespace SwanServer

/-- `class FileSystem`, over the store `σ` it works on.  `readFile` returns the
contents where `read_file` returns true. -/
structure FileSystem (σ : Type) where
  pathExists : Str → Act σ Bool
  createDirectory : Str → Act σ Bool
  isRegularFile : Str → Act σ Bool
  remove : Str → Act σ Bool
  writeFile : Str → Str → Act σ Bool
  genIdAndWriteFile : Str → Str → Act σ Int
  readFile : Str → Act σ (Option Str)
  getFileList : Str → Act σ Str

/-- The loop of `get_unique_file_name` over the names of a directory: the
largest number so far, or the fault of `stoi`. -/
def largestFile : Int → List Str → Except Fault Int
  | largest, [] => .ok largest
  | largest, name :: rest =>
      match stoi (stem name) with
      | .error fault => .error fault
      | .ok number => largestFile (if largest < number then number else largest) rest

/-- `get_unique_file_name`: one more than the largest number, as an `int`. -/
def uniqueFileName (names : List Str) : Except Fault Int :=
  match largestFile 0 names with
  | .error fault => .error fault
  | .ok largest => .ok (wrapInt (largest + 1))

/-- The loop ends with a number that bounds those of all names and is one of
them, unless it never rose. -/
theorem largestFile_spec {start largest : Int} {names : List Str}
    (hlargest : largestFile start names = .ok largest) :
    start ≤ largest ∧
      (∀ name ∈ names, ∃ number ≤ largest, stoi (stem name) = .ok number) ∧
      (largest = start ∨ ∃ name ∈ names, stoi (stem name) = .ok largest) := by
  induction names generalizing start with
  | nil =>
      cases hlargest
      simp
  | cons name rest ih =>
      rw [largestFile] at hlargest
      split at hlargest
      · contradiction
      · next number hnumber =>
          obtain ⟨hstart, hbound, hattained⟩ := ih hlargest
          have hle : start ≤ largest ∧ number ≤ largest := by
            split at hstart <;> omega
          refine ⟨hle.1, ?_, ?_⟩
          · rw [List.forall_mem_cons]
            exact ⟨⟨number, hle.2, hnumber⟩, hbound⟩
          · rcases hattained with heq | ⟨other, hother, hvalue⟩
            · split at heq
              · exact Or.inr ⟨name, List.mem_cons_self, heq ▸ hnumber⟩
              · exact Or.inl heq
            · exact Or.inr ⟨other, List.mem_cons_of_mem name hother, hvalue⟩

/-- The loop faults on a name that does not read as an `int`, wherever it is. -/
theorem exists_largestFile_iff (start : Int) (names : List Str) :
    (∃ largest, largestFile start names = .ok largest) ↔
      ∀ name ∈ names, ∃ number, stoi (stem name) = .ok number := by
  induction names generalizing start with
  | nil => simp [largestFile]
  | cons name rest ih =>
      rw [List.forall_mem_cons, largestFile]
      cases stoi (stem name) with
      | error fault => simp
      | ok number => simp [ih]

theorem exists_uniqueFileName_iff (names : List Str) :
    (∃ id, uniqueFileName names = .ok id) ↔
      ∀ name ∈ names, ∃ number, stoi (stem name) = .ok number := by
  rw [← exists_largestFile_iff 0, uniqueFileName]
  cases largestFile 0 names <;> simp

theorem exists_wrapInt_of_uniqueFileName {names : List Str} {id : Int}
    (hunique : uniqueFileName names = .ok id) : ∃ n, id = wrapInt n := by
  rw [uniqueFileName] at hunique
  split at hunique
  · contradiction
  · next largest hlargest =>
      cases hunique
      exact ⟨largest + 1, rfl⟩

/-- Short of the largest `int`, the next id is one more than the largest
number. -/
theorem uniqueFileName_eq_ok {names : List Str} {id : Int}
    (hunique : uniqueFileName names = .ok id)
    (hroom : ∀ name ∈ names, stoi (stem name) ≠ .ok intMax) :
    ∃ largest, largestFile 0 names = .ok largest ∧ id = largest + 1 ∧
      0 ≤ largest ∧ largest < intMax := by
  rw [uniqueFileName] at hunique
  split at hunique
  · contradiction
  · next largest hlargest =>
      obtain ⟨hstart, -, hattained⟩ := largestFile_spec hlargest
      have hmax : largest < intMax := by
        rcases hattained with rfl | ⟨name, hname, hvalue⟩
        · decide
        · have hle := stoi_le_intMax hvalue
          have hne : largest ≠ intMax := fun heq => hroom name hname (heq ▸ hvalue)
          omega
      have hmin : intMin ≤ largest + 1 := (show intMin ≤ 0 by decide).trans (by omega)
      cases hunique
      exact ⟨largest, hlargest, wrapInt_of_mem hmin (by omega), hstart, hmax⟩

/-- The next id is not the name of a file. -/
theorem toStringInt_not_mem_of_uniqueFileName {names : List Str} {id : Int}
    (hunique : uniqueFileName names = .ok id)
    (hroom : ∀ name ∈ names, stoi (stem name) ≠ .ok intMax) :
    toStringInt id ∉ names := by
  obtain ⟨largest, hlargest, rfl, hnonneg, hmax⟩ := uniqueFileName_eq_ok hunique hroom
  intro hmem
  obtain ⟨number, hle, hnumber⟩ := (largestFile_spec hlargest).2.1 _ hmem
  have hmin : intMin ≤ largest + 1 := (show intMin ≤ 0 by decide).trans (by omega)
  rw [stem_toStringInt, stoi_toStringInt hmin (by omega)] at hnumber
  cases hnumber
  omega

/-- Past the largest `int` the next id wraps around. -/
theorem uniqueFileName_eq_intMin {names : List Str} {id : Int}
    (hunique : uniqueFileName names = .ok id)
    (hfull : ∃ name ∈ names, stoi (stem name) = .ok intMax) : id = intMin := by
  obtain ⟨name, hname, hmax⟩ := hfull
  rw [uniqueFileName] at hunique
  split at hunique
  · contradiction
  · next largest hlargest =>
      obtain ⟨-, hbound, hattained⟩ := largestFile_spec hlargest
      obtain ⟨number, hle, hnumber⟩ := hbound name hname
      rw [hmax] at hnumber
      cases hnumber
      have hlow : largest ≤ intMax := by
        rcases hattained with rfl | ⟨other, -, hvalue⟩
        · decide
        · exact stoi_le_intMax hvalue
      cases hunique
      rw [le_antisymm hlow hle]
      rfl

/-- The next id is positive unless a file carries the largest `int`. -/
theorem uniqueFileName_pos_iff {names : List Str} {id : Int}
    (hunique : uniqueFileName names = .ok id) :
    0 < id ↔ ∀ name ∈ names, stoi (stem name) ≠ .ok intMax := by
  constructor
  · intro hpos name hname hmax
    rw [uniqueFileName_eq_intMin hunique ⟨name, hname, hmax⟩] at hpos
    contradiction
  · intro hroom
    obtain ⟨largest, -, rfl, hnonneg, -⟩ := uniqueFileName_eq_ok hunique hroom
    omega

/-- The id that reports a failure is never given. -/
theorem uniqueFileName_ne_neg_one {names : List Str} {id : Int}
    (hunique : uniqueFileName names = .ok id) : id ≠ -1 := by
  by_cases hroom : ∀ name ∈ names, stoi (stem name) ≠ .ok intMax
  · have hpos := (uniqueFileName_pos_iff hunique).mpr hroom
    omega
  · push Not at hroom
    rw [uniqueFileName_eq_intMin hunique hroom]
    decide

/-- `get_file_list` on the names of a directory.  `substr` cuts the last two
characters of the list, and on the bare bracket it cuts nothing. -/
def fileList (names : List Str) : Str :=
  let result := "[".toList ++ names.flatMap fun name => stem name ++ ", ".toList
  let result := if 2 ≤ result.length then result.take (result.length - 2) else result
  result ++ "]".toList

theorem flatMap_append_eq_intercalate (separator : Str) {names : List Str}
    (hnames : names ≠ []) :
    (names.flatMap fun name => name ++ separator) =
      separator.intercalate names ++ separator := by
  induction names with
  | nil => contradiction
  | cons name rest ih =>
      cases rest with
      | nil => simp
      | cons next others =>
          rw [List.flatMap_cons, ih (List.cons_ne_nil next others),
            List.intercalate_cons_cons]
          simp only [List.append_assoc]

/-- The list of names that are their own stems. -/
theorem fileList_eq_intercalate {names : List Str} (hnames : names ≠ [])
    (hstem : ∀ name ∈ names, stem name = name) :
    fileList names = "[".toList ++ ", ".toList.intercalate names ++ "]".toList := by
  have hbodies : (names.flatMap fun name => stem name ++ ", ".toList) =
      ", ".toList.intercalate names ++ ", ".toList := by
    rw [← flatMap_append_eq_intercalate _ hnames]
    exact List.flatMap_congr fun name hname => by rw [hstem name hname]
  have hresult : ∀ bodies : Str, ("[".toList ++ (bodies ++ ", ".toList)).take
      (("[".toList ++ (bodies ++ ", ".toList)).length - 2) = "[".toList ++ bodies := by
    intro bodies
    rw [← List.append_assoc]
    exact List.take_left' (by simp)
  rw [fileList]
  simp only [hbodies, hresult]
  rw [if_pos (by simp)]

namespace RealFileSystem

/-- `RealFileSystem::get_unique_file_name`. -/
def getUniqueFileName (host : Host) (p : Str) : Act Disk Int := do
  let names ← Disk.directoryIterator host p
  Act.ofExcept (uniqueFileName names)

/-- `RealFileSystem::remove`. -/
def remove (host : Host) (p : Str) : Act Disk Bool := do
  let success ← Disk.remove host p
  if ← Disk.isEmpty (parentPath p) then
    Disk.removeAll host (parentPath p)
  return success

/-- Create a directory unless the path exists. -/
def ensureDirectory (host : Host) (p : Str) : Act Disk Unit := do
  let present ← Act.attempt fun disk => (.ok (disk.pathExists p), disk)
  if present = false then
    let _ ← Disk.createDirectory host p

/-- `RealFileSystem::write_file`. -/
def writeFile (host : Host) (filePath body : Str) : Act Disk Bool := do
  ensureDirectory host (parentPath filePath)
  match ← Disk.fopen host filePath with
  | some fp => do
      Disk.fputs host fp (cStr body)
      return true
  | none => return false

/-- `RealFileSystem::gen_id_and_write_file`. -/
def genIdAndWriteFile (host : Host) (dirPath body : Str) : Act Disk Int := do
  ensureDirectory host dirPath
  let fileName ← getUniqueFileName host dirPath
  let filePath := dirPath ++ "/".toList ++ toStringInt fileName
  match ← Disk.fopen host filePath with
  | some fp => do
      Disk.fputs host fp (cStr body)
      return fileName
  | none => return -1

/-- `RealFileSystem::read_file`. -/
def readFile (host : Host) (p : Str) : Act Disk (Option Str) :=
  Act.attempt fun disk =>
    (.ok (if disk.isRegularFile p then some (disk.read host p) else none), disk)

/-- `RealFileSystem::get_file_list`. -/
def getFileList (host : Host) (p : Str) : Act Disk Str := do
  let names ← Disk.directoryIterator host p
  return fileList names

end RealFileSystem

/-- `class RealFileSystem`. -/
def realFileSystem (host : Host) : FileSystem Disk where
  pathExists p := Act.attempt fun disk => (.ok (disk.pathExists p), disk)
  createDirectory := Disk.createDirectory host
  isRegularFile p := Act.attempt fun disk => (.ok (disk.isRegularFile p), disk)
  remove := RealFileSystem.remove host
  writeFile := RealFileSystem.writeFile host
  genIdAndWriteFile := RealFileSystem.genIdAndWriteFile host
  readFile := RealFileSystem.readFile host
  getFileList := RealFileSystem.getFileList host

end SwanServer
