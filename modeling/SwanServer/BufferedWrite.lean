/-
A file opened for writing with a buffer in front of it.  Taking a text in and
moving the buffer on may both stop anywhere.
-/
import Mathlib

namespace BufferedWrite

universe u

variable {α : Type u}

/-- What has reached the file, and what waits in the buffer. -/
structure BufferedFile (α : Type u) where
  file : List α
  buffer : List α

namespace BufferedFile

def opened : BufferedFile α := ⟨[], []⟩

/-- The first entries of a text go into the buffer, and the others are lost. -/
def put (count : Nat) (text : List α) (fp : BufferedFile α) : BufferedFile α :=
  { fp with buffer := fp.buffer ++ text.take count }

/-- The first entries of the buffer go into the file. -/
def drain (count : Nat) (fp : BufferedFile α) : BufferedFile α :=
  ⟨fp.file ++ fp.buffer.take count, fp.buffer.drop count⟩

/-- Moving the buffer on in two steps is moving it on once. -/
theorem drain_drain (first second : Nat) (fp : BufferedFile α) :
    (fp.drain first).drain second = fp.drain (first + second) := by
  rw [drain, drain, drain, List.append_assoc, ← List.take_add, List.drop_drop]

/-- What a single text leaves in the file. -/
theorem file_drain_put (taken moved : Nat) (text : List α) :
    ((opened.put taken text).drain moved).file = text.take (min moved taken) := by
  rw [opened, put, drain, List.nil_append, List.nil_append, List.take_take]

end BufferedFile

end BufferedWrite
