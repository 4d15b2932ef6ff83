import NoiseFilter.Bytes.Words

/-!
# Sinks

A sink takes bytes, all there are or up to a limit. What is written beyond the limit fails, after the
part that still fitted was taken; writing nothing never fails.
-/

namespace NoiseFilter

/-- **Where output goes**: how much is still taken, if there is a limit, and what was taken so far, the
latest piece first. -/
structure Sink where
  room : Option Nat
  pieces : List Bytes
deriving DecidableEq, Repr

namespace Sink

/-- A sink without a limit. -/
def unlimited : Sink := ⟨none, []⟩

/-- A sink that takes `limit` bytes. -/
def limited (limit : Nat) : Sink := ⟨some limit, []⟩

/-- All that was taken, in order. -/
def toBytes (s : Sink) : Bytes := s.pieces.reverse.flatten

/-- **Writing**: whether all of it was taken, and the sink with what was. -/
def write (s : Sink) (bytes : Bytes) : Bool × Sink :=
  match s.room with
  | none => (true, { s with pieces := bytes :: s.pieces })
  | some room =>
    if bytes.length ≤ room then (true, ⟨some (room - bytes.length), bytes :: s.pieces⟩)
    else (false, ⟨some 0, bytes.take room :: s.pieces⟩)

/-- A sink without a limit takes everything. -/
theorem toBytes_write_unlimited (s : Sink) (bytes : Bytes) (h : s.room = none) :
    (s.write bytes).2.toBytes = s.toBytes ++ bytes := by
  simp [write, h, toBytes]

/-- A sink takes as much as there is room for. -/
theorem toBytes_write_limited (s : Sink) (bytes : Bytes) (room : Nat) (h : s.room = some room) :
    (s.write bytes).2.toBytes = s.toBytes ++ bytes.take room := by
  simp only [write, h, toBytes]
  split
  · rename_i hle; simp [List.take_of_length_le hle]
  · simp

end Sink

end NoiseFilter
