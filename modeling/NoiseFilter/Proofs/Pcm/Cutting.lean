import NoiseFilter.Pcm.Accumulator

/-!
# Cutting a stream in pieces

A stream of bytes may be cut into frames as a whole or piece by piece, with what is left over put in
front of the next piece. The frames are the same, and so is what is left over at the end
(`Accumulator.cut_append`).

The reason is that a stream has only one cutting: frames and a rest of less than a frame are its
cutting as soon as they join up to it (`Accumulator.cut_join_append`).
-/

namespace NoiseFilter

namespace WireFrame

@[simp] theorem join_nil : join [] = [] := rfl

@[simp] theorem join_cons (frame : WireFrame) (frames : List WireFrame) :
    join (frame :: frames) = frame.bytes ++ join frames := rfl

@[simp] theorem join_append (frames frames' : List WireFrame) :
    join (frames ++ frames') = join frames ++ join frames' := List.flatMap_append

/-- A frame is read off its own bytes. -/
theorem ofBytes?_bytes (frame : WireFrame) : ofBytes? frame.bytes = some frame :=
  dif_pos frame.length_bytes

end WireFrame

namespace Accumulator

/-- **Frames and a rest of less than a frame are the cutting of what they join up to.** -/
theorem cut_join_append (frames : List WireFrame) {rest : Bytes} (hrest : rest.length < frameBytes) :
    cut (WireFrame.join frames ++ rest) = (frames, rest) := by
  induction frames with
  | nil =>
    have hnone : WireFrame.ofBytes? (rest.take frameBytes) = none := by
      refine dif_neg fun hlen => ?_
      rw [List.length_take] at hlen
      omega
    rw [WireFrame.join_nil, List.nil_append, cut]
    split
    · rfl
    · next frame hframe =>
      rw [hnone] at hframe
      cases hframe
  | cons frame frames ih =>
    have htake : (frame.bytes ++ (WireFrame.join frames ++ rest)).take frameBytes = frame.bytes :=
      List.take_left' frame.length_bytes
    have hdrop : (frame.bytes ++ (WireFrame.join frames ++ rest)).drop frameBytes =
        WireFrame.join frames ++ rest := List.drop_left' frame.length_bytes
    rw [WireFrame.join_cons, List.append_assoc, cut]
    split
    · next hnone =>
      rw [htake, frame.ofBytes?_bytes] at hnone
      cases hnone
    · next frame' hframe =>
      rw [htake, frame.ofBytes?_bytes] at hframe
      cases hframe
      rw [hdrop, ih]

/-- Less than a frame is cut into no frames. -/
theorem cut_of_lt {bytes : Bytes} (h : bytes.length < frameBytes) : cut bytes = ([], bytes) :=
  cut_join_append [] h

/-- **Cutting goes on where it stopped**: what follows is cut together with what was left over. -/
theorem cut_append (a b : Bytes) :
    cut (a ++ b) = ((cut a).1 ++ (cut ((cut a).2 ++ b)).1, (cut ((cut a).2 ++ b)).2) := by
  have hjoin : WireFrame.join ((cut a).1 ++ (cut ((cut a).2 ++ b)).1) ++ (cut ((cut a).2 ++ b)).2 =
      a ++ b := by
    rw [WireFrame.join_append, List.append_assoc, cut_join, ← List.append_assoc, cut_join]
  conv => lhs; rw [← hjoin]
  exact cut_join_append _ (cut_rest_lt _)

end Accumulator

end NoiseFilter
