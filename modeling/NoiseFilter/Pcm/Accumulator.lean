import NoiseFilter.Pcm.Frame

/-!
# The accumulator

Payloads come in any size, frames have one. An accumulator joins payloads in order of arrival and cuts
the joined bytes into frames; what does not fill a frame waits for the next payload.

* `Accumulator.cut` – a byte string as its frames and the rest;
* `Accumulator.feed` – one payload more;
* `Accumulator.take`, `Accumulator.restore` – the waiting bytes out of it and back.

`Accumulator.cut_join` says that cutting loses and reorders nothing, `Accumulator.cut_rest_lt` that
less than a frame is left.
-/

namespace NoiseFilter

/-- The bytes that wait for the rest of their frame. -/
structure Accumulator where
  waiting : Bytes
deriving DecidableEq, Repr

/-- The bytes of a run of frames. -/
def WireFrame.join (frames : List WireFrame) : Bytes := frames.flatMap WireFrame.bytes

namespace Accumulator

/-- An accumulator with nothing in it. -/
def empty : Accumulator := ⟨[]⟩

instance : Inhabited Accumulator := ⟨empty⟩

/-- The number of bytes waiting. -/
def size (a : Accumulator) : Nat := a.waiting.length

/-- **Cutting**: the whole frames of a byte string from its start, and the bytes after them. -/
def cut (bytes : Bytes) : List WireFrame × Bytes :=
  match _h : WireFrame.ofBytes? (bytes.take frameBytes) with
  | none => ([], bytes)
  | some frame =>
    let (frames, rest) := cut (bytes.drop frameBytes)
    (frame :: frames, rest)
termination_by bytes.length
decreasing_by
  have hf := WireFrame.bytes_of_ofBytes? _h
  have hl := frame.length_bytes
  rw [hf, List.length_take] at hl
  rw [List.length_drop]
  simp only [frameBytes] at hl ⊢
  omega

/-- **One payload more**: the frames that are complete now, and the accumulator with the rest. -/
def feed (a : Accumulator) (payload : Bytes) : List WireFrame × Accumulator :=
  let (frames, rest) := cut (a.waiting ++ payload)
  (frames, ⟨rest⟩)

/-- The waiting bytes, and the accumulator without them. -/
def take (a : Accumulator) : Bytes × Accumulator := (a.waiting, empty)

/-- The accumulator in which exactly `bytes` wait. -/
def restore (_ : Accumulator) (bytes : Bytes) : Accumulator := ⟨bytes⟩

/-- The accumulator with nothing waiting. -/
def clear (_ : Accumulator) : Accumulator := empty

/-! ### Nothing is lost -/

/-- A byte string is its frames and the rest after them. -/
theorem cut_join (bytes : Bytes) : WireFrame.join (cut bytes).1 ++ (cut bytes).2 = bytes := by
  fun_induction cut bytes with
  | case1 bytes h => simp [WireFrame.join]
  | case2 bytes frame h frames rest heq ih =>
    rw [heq] at ih
    simp only [WireFrame.join, List.flatMap_cons, List.append_assoc] at ih ⊢
    rw [ih, WireFrame.bytes_of_ofBytes? h, List.take_append_drop]

/-- Less than a frame is left. -/
theorem cut_rest_lt (bytes : Bytes) : (cut bytes).2.length < frameBytes := by
  fun_induction cut bytes with
  | case1 bytes h =>
    have hl := WireFrame.ofBytes?_eq_none h
    rw [List.length_take] at hl
    simp only [frameBytes] at hl ⊢
    omega
  | case2 bytes frame h frames rest heq ih => rw [heq] at ih; exact ih

end Accumulator

end NoiseFilter
