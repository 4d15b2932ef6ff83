import NoiseFilter.Bytes.Words

/-!
# Buffers

A reader fills a buffer of its caller, of a size that the caller chose. The buffer starts as zeros,
and most of it usually stays so: it is kept as the bytes written so far and the number of zeros after
them, so that a buffer of any size costs no more than what was written into it.

`Buffer.toBytes` is the view in which every statement about buffers is made:
`Buffer.toBytes_blank`, `Buffer.length_toBytes` and `Buffer.toBytes_overwrite` say what the operations
do to it.
-/

namespace NoiseFilter

/-- A buffer: the bytes written from its start, then `spare` zeros that nobody has written to. -/
structure Buffer where
  written : Bytes
  spare : Nat
deriving DecidableEq, Repr

namespace Buffer

/-- The bytes of the buffer. -/
def toBytes (b : Buffer) : Bytes := b.written ++ Bytes.zeros b.spare

/-- The number of bytes that the buffer holds. -/
def size (b : Buffer) : Nat := b.written.length + b.spare

/-- A new buffer. -/
def blank (size : Nat) : Buffer := ⟨[], size⟩

/-- The first `count` bytes, or all where there are fewer. -/
def take (b : Buffer) (count : Nat) : Bytes :=
  b.written.take count ++ Bytes.zeros (min (count - b.written.length) b.spare)

/-- **The first `count` bytes**, or none at all where the buffer is shorter than that. -/
def window? (b : Buffer) (count : Nat) : Option Bytes :=
  if count ≤ b.size then some (b.take count) else none

/-- **Writing from the start**: `data` replaces the first bytes, all others stay. -/
def overwrite (b : Buffer) (data : Bytes) : Buffer :=
  ⟨data ++ b.written.drop data.length, b.spare - (data.length - b.written.length)⟩

/-! ### The view -/

@[simp] theorem length_toBytes (b : Buffer) : b.toBytes.length = b.size := by
  simp [toBytes, size]

@[simp] theorem toBytes_blank (n : Nat) : (blank n).toBytes = Bytes.zeros n := by
  simp [toBytes, blank]

@[simp] theorem size_blank (n : Nat) : (blank n).size = n := by
  simp [size, blank]

theorem take_eq (b : Buffer) (count : Nat) : b.take count = b.toBytes.take count := by
  simp [take, toBytes, Bytes.zeros, List.take_append]

theorem toBytes_overwrite (b : Buffer) (data : Bytes) :
    (b.overwrite data).toBytes = data ++ b.toBytes.drop data.length := by
  simp [overwrite, toBytes, Bytes.zeros, List.drop_append]

/-- Writing what fits leaves the size as it was. -/
theorem size_overwrite (b : Buffer) (data : Bytes) (h : data.length ≤ b.size) :
    (b.overwrite data).size = b.size := by
  simp only [size, overwrite, List.length_append, List.length_drop] at h ⊢
  omega

end Buffer

end NoiseFilter
