/-
One connection.  Every read lands at the front of the same array `data_`,
which is then handed on as a C string; nothing clears what an earlier, longer
read left behind.
-/
import SwanServer.Machine
import SwanServer.Overlay
import SwanServer.RequestHandlerDelegate

namespace SwanServer

open Overlay

/-- `max_length`. -/
def maxLength : Nat := 1024

/-- `char data_[max_length]`. -/
structure Buffer where
  cells : Str
  length_cells : cells.length = maxLength

/-- The bytes that one successful read delivers. -/
structure Chunk where
  bytes : Str
  pos : 1 ≤ bytes.length
  bound : bytes.length ≤ maxLength

/-- `async_read_some(buffer(data_, max_length))` delivering `chunk`. -/
def Buffer.asyncReadSome (data : Buffer) (chunk : Chunk) : Buffer where
  cells := overlay chunk.bytes data.cells
  length_cells := by
    rw [length_overlay, data.length_cells]
    exact Nat.max_eq_right chunk.bound

/-- The array as the `std::string` argument of `processRequest`: the cells up
to the first NUL.  Without a NUL the conversion reads past the array. -/
def Buffer.requestString (data : Buffer) : Option Str :=
  upTo nul data.cells

section HandleRead

variable {φ σ : Type} (parseRequest : Str → Option Request)
  (create : φ → HandleRequest σ)

/-- `Session::handle_read` after a read without error.  The number of bytes
transferred is passed in and not looked at. -/
def handleRead (data : Buffer) (_bytesTransferred : Nat)
    (factoryRoutes : FactoryRoutes φ) : Act σ (Response × FactoryRoutes φ) :=
  match data.requestString with
  | none => throw .undefinedBehaviour
  | some requestString =>
      processRequest parseRequest create factoryRoutes requestString Response.empty

/-- A read on the session: `data_` is overwritten, the request is handled and
the response is what `async_write` sends. -/
def onRead (data : Buffer) (chunk : Chunk) (factoryRoutes : FactoryRoutes φ) :
    Act σ (Response × FactoryRoutes φ) :=
  handleRead parseRequest create (data.asyncReadSome chunk) chunk.bytes.length
    factoryRoutes

end HandleRead

/-- The read side of a session: each read answers with the request string it
passes on and leaves the array it wrote. -/
def readMachine : Machine Buffer Chunk (Option Str) where
  step data chunk :=
    ((data.asyncReadSome chunk).requestString, data.asyncReadSome chunk)

/-- `data_` after a history of reads. -/
def Buffer.after (data : Buffer) (history : List Chunk) : Buffer :=
  readMachine.final data history

theorem Buffer.cells_after (data : Buffer) (history : List Chunk) :
    (data.after history).cells = overlays (history.map Chunk.bytes) data.cells := by
  induction history generalizing data with
  | nil => rfl
  | cons chunk rest ih => exact ih (data.asyncReadSome chunk)

/-- The cell behind the new bytes still holds NUL: it held NUL when the
session was made, and no earlier read was longer than this one. -/
def TailClear (data : Buffer) (history : List Chunk) (chunk : Chunk) : Prop :=
  data.cells[chunk.bytes.length]? = some nul ∧
    ∀ earlier ∈ history, earlier.bytes.length ≤ chunk.bytes.length

instance (data : Buffer) (history : List Chunk) (chunk : Chunk) :
    Decidable (TailClear data history chunk) :=
  inferInstanceAs (Decidable (_ ∧ _))

/-- What the next request string is depends on one cell, whose content after
any history is known. -/
theorem requestString_after_eq_some_iff (data : Buffer) {history : List Chunk}
    {chunk : Chunk} (hhistory : ∀ earlier ∈ history, nul ∉ earlier.bytes)
    (hchunk : nul ∉ chunk.bytes) :
    ((data.after history).asyncReadSome chunk).requestString = some chunk.bytes ↔
      TailClear data history chunk := by
  have hstop : ∀ new ∈ history.map Chunk.bytes, nul ∉ new := by
    intro new hnew
    obtain ⟨earlier, hearlier, rfl⟩ := List.mem_map.mp hnew
    exact hhistory earlier hearlier
  have hcell := getElem?_overlays_eq_some_iff (history.map Chunk.bytes)
    data.cells hstop chunk.bytes.length
  rw [Buffer.requestString, Buffer.asyncReadSome, upTo_overlay_eq_some_iff hchunk,
    Buffer.cells_after, hcell, List.forall_mem_map, TailClear, and_comm]

/-- A read whose request string is its own bytes is answered as if nothing
had been read before. -/
theorem onRead_eq_of_requestString {φ σ : Type}
    (parseRequest : Str → Option Request) (create : φ → HandleRequest σ)
    (factoryRoutes : FactoryRoutes φ) {data : Buffer} {chunk : Chunk}
    (hread : (data.asyncReadSome chunk).requestString = some chunk.bytes) :
    onRead parseRequest create data chunk factoryRoutes =
      processRequest parseRequest create factoryRoutes chunk.bytes
        Response.empty := by
  rw [onRead, handleRead, hread]

/-- The request string of a read is exactly the bytes of that read, and hence
the response depends on nothing received before. -/
def Isolated (data : Buffer) (history : List Chunk) (chunk : Chunk) : Prop :=
  ((data.after history).asyncReadSome chunk).requestString = some chunk.bytes ∧
    ∀ {φ σ : Type} (parseRequest : Str → Option Request)
      (create : φ → HandleRequest σ) (factoryRoutes : FactoryRoutes φ) (store : σ),
      (onRead parseRequest create (data.after history) chunk factoryRoutes).exec
          store =
        (processRequest parseRequest create factoryRoutes chunk.bytes
          Response.empty).exec store

/-- A read is isolated from the history of its connection exactly when the
array is clear behind it. -/
theorem isolated_iff_tailClear (data : Buffer) (history : List Chunk)
    (chunk : Chunk) (hhistory : ∀ earlier ∈ history, nul ∉ earlier.bytes)
    (hchunk : nul ∉ chunk.bytes) :
    Isolated data history chunk ↔ TailClear data history chunk := by
  rw [← requestString_after_eq_some_iff data hhistory hchunk]
  constructor
  · exact fun hisolated => hisolated.1
  · intro hread
    refine ⟨hread, ?_⟩
    intro φ σ parseRequest create factoryRoutes store
    rw [onRead_eq_of_requestString parseRequest create factoryRoutes hread]

namespace SessionWitness

/-- A session whose array happens to be zeroed. -/
def zeroed : Buffer := ⟨List.replicate maxLength nul, List.length_replicate⟩

def longRead : Chunk :=
  ⟨"GET /api/shoes HTTP/1.1\r\n\r\n".toList, by decide, by decide⟩

def shortRead : Chunk :=
  ⟨"GET /echo HTTP/1.1\r\n\r\n".toList, by decide, by decide⟩

/-- Requests of growing length do not meet the old bytes. -/
theorem isolated_growing : Isolated zeroed [shortRead] longRead := by
  have hclear : TailClear zeroed [shortRead] longRead :=
    ⟨List.getElem?_replicate_of_lt (by decide), by decide⟩
  exact (isolated_iff_tailClear zeroed [shortRead] longRead
    (by decide) (by decide)).mpr hclear

/-- A shorter request is handed on with the end of the longer one before it. -/
theorem not_isolated_shrinking : ¬ Isolated zeroed [longRead] shortRead := by
  intro hisolated
  have hclear : TailClear zeroed [longRead] shortRead :=
    (requestString_after_eq_some_iff zeroed (by decide) (by decide)).mp hisolated.1
  exact absurd (hclear.2 longRead List.mem_cons_self) (by decide)

end SessionWitness

end SwanServer
