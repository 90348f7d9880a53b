/-!
# Files behind buffers

Bytes that are written to a file first wait in a buffer. A flush brings all of them to the file, and
so does the end of whoever writes. Between two flushes bytes may go on to the file by themselves, in
the order in which they were written. How many of them do is left to the buffer (`Buffered.spill`):
what is said of a file here holds whatever its buffer does. File and buffer together are what was
written (`Buffered.written_write`), after a flush all of it is in the file (`Buffered.file_flush`),
and what is in the file stays where it is (`Buffered.keepsFile_write`).
-/

namespace TileWalk.Trace

/-- A file and the buffer in front of it. -/
structure Buffered where
  /-- How many bytes go on by themselves after a write, by the number of bytes written so far. -/
  spill : Nat → Nat
  /-- What has reached the file. -/
  file : ByteArray
  /-- What waits in the buffer. -/
  waiting : ByteArray

namespace Buffered

/-- A new file. -/
def ofSpill (spill : Nat → Nat) : Buffered :=
  ⟨spill, .empty, .empty⟩

/-- Brings the first `n` of the waiting bytes to the file. -/
def release (n : Nat) (b : Buffered) : Buffered :=
  if n = 0 then b
  else
    { b with
      file := b.file ++ b.waiting.extract 0 n
      waiting := b.waiting.extract n b.waiting.size }

/-- Writes bytes behind the others. -/
def write (bytes : ByteArray) (b : Buffered) : Buffered :=
  let b := { b with waiting := b.waiting ++ bytes }
  b.release (b.spill (b.file.size + b.waiting.size))

/-- Brings everything to the file. -/
def flush (b : Buffered) : Buffered :=
  b.release b.waiting.size

/-- The file as a text, if its bytes are those of one. -/
def text? (b : Buffered) : Option String :=
  String.fromUTF8? b.file

/-! ### What was written -/

/-- Everything that was written, be it in the file or not. -/
def written (b : Buffered) : ByteArray :=
  b.file ++ b.waiting

@[simp]
theorem written_ofSpill (spill : Nat → Nat) : (ofSpill spill).written = .empty :=
  ByteArray.append_empty

@[simp]
theorem written_release (n : Nat) (b : Buffered) : (b.release n).written = b.written := by
  unfold release
  split
  · rfl
  · rw [written, written, ByteArray.append_assoc, ByteArray.extract_append_extract, Nat.zero_min,
      ByteArray.extract_zero_max_size]

@[simp]
theorem written_write (bytes : ByteArray) (b : Buffered) :
    (b.write bytes).written = b.written ++ bytes := by
  rw [write, written_release, written, written, ByteArray.append_assoc]

@[simp]
theorem written_flush (b : Buffered) : b.flush.written = b.written :=
  written_release _ b

/-- After a flush nothing waits. -/
@[simp]
theorem file_flush (b : Buffered) : b.flush.file = b.written := by
  unfold flush release
  split
  · next h => rw [written, ByteArray.size_eq_zero_iff.mp h, ByteArray.append_empty]
  · rw [written, ByteArray.extract_zero_size]

/-! ### What stays in the file -/

/-- What was in the file is still in front of everything else that is in it. -/
def KeepsFile (before after : Buffered) : Prop :=
  ∃ rest, after.file = before.file ++ rest

theorem KeepsFile.refl (b : Buffered) : b.KeepsFile b :=
  ⟨.empty, ByteArray.append_empty.symm⟩

theorem KeepsFile.trans {b c d : Buffered} (h : b.KeepsFile c) (h' : c.KeepsFile d) :
    b.KeepsFile d := by
  obtain ⟨rest, hrest⟩ := h
  obtain ⟨rest', hrest'⟩ := h'
  exact ⟨rest ++ rest', by rw [hrest', hrest, ByteArray.append_assoc]⟩

theorem keepsFile_release (n : Nat) (b : Buffered) : b.KeepsFile (b.release n) := by
  unfold release
  split
  · exact .refl b
  · exact ⟨_, rfl⟩

theorem keepsFile_write (bytes : ByteArray) (b : Buffered) : b.KeepsFile (b.write bytes) :=
  keepsFile_release _ { b with waiting := b.waiting ++ bytes }

theorem keepsFile_flush (b : Buffered) : b.KeepsFile b.flush :=
  keepsFile_release _ b

end Buffered

end TileWalk.Trace
