import NoiseFilter.Proofs.Pcm.Codec
import NoiseFilter.Proofs.Pcm.Cutting
import NoiseFilter.Stream.Filter

/-!
# What goes through the engine

`Filter.suppress` neither loses nor makes a byte: what it sends and what it leaves waiting are, **as
bytes counted**, all that it was given, whatever the engine answers (`Filter.length_suppress`). With an
engine that hands every frame back or fails on it they are the very bytes that it was given
(`Filter.suppress_of_faithful`), because a frame that failed goes out as it came.

`Backend.clean` is a stream of bytes put to an engine in one piece: its frames as the engine leaves them,
and the end that fills no frame as it is.
-/

namespace NoiseFilter

/-! ### Frames -/

theorem WireFrame.length_join (frames : List WireFrame) :
    (join frames).length = frameBytes * frames.length := by
  induction frames with
  | nil => rfl
  | cons frame frames ih =>
    have hlen := frame.length_bytes
    rw [join] at ih ⊢
    rw [List.flatMap_cons, List.length_append, ih, hlen, List.length_cons, Nat.mul_succ]
    omega

namespace Accumulator

/-- **Feeding loses and reorders nothing.** -/
theorem join_feed (a : Accumulator) (payload : Bytes) :
    WireFrame.join (a.feed payload).1 ++ (a.feed payload).2.waiting = a.waiting ++ payload :=
  cut_join _

/-- The frames are as many as there are bytes for. -/
theorem length_cut (bytes : Bytes) : (cut bytes).1.length = bytes.length / frameBytes ∧
    (cut bytes).2.length = bytes.length % frameBytes := by
  have hlen := congrArg List.length (cut_join bytes)
  have hrest := cut_rest_lt bytes
  rw [List.length_append, WireFrame.length_join] at hlen
  have hframe : frameBytes = 960 := rfl
  rw [hframe] at hlen hrest ⊢
  omega

theorem length_feed (a : Accumulator) (payload : Bytes) :
    (a.feed payload).1.length = (a.waiting ++ payload).length / frameBytes ∧
      (a.feed payload).2.waiting.length = (a.waiting ++ payload).length % frameBytes :=
  length_cut _

end Accumulator

/-! ### Analyses -/

namespace Analysis

/-- **A faithful answer**: the frame is handed back as voice, or the engine fails on it. -/
def Faithful (a : Analysis) : Prop :=
  ∀ verdict, a.answer = .ok verdict → verdict.voice = true ∧ verdict.samples = a.frame.decode

/-- A frame that was answered faithfully is sent on as it came. -/
theorem output_of_faithful {a : Analysis} (h : a.Faithful) : a.output = a.frame := by
  rw [output]
  cases hanswer : a.answer with
  | error why => exact a.frame.encode_decode
  | ok verdict =>
    obtain ⟨hvoice, hsamples⟩ := h verdict hanswer
    simp only [hvoice, if_true, hsamples]
    exact a.frame.encode_decode

/-- A frame that the engine failed on is sent on as it came. -/
theorem output_of_error (a : Analysis) {why : Failure} (h : a.answer = .error why) :
    a.output = a.frame := by
  refine output_of_faithful fun verdict hverdict => ?_
  rw [h] at hverdict
  cases hverdict

end Analysis

variable {pool engine : Type}

/-- Every frame is analysed, in order. -/
theorem Backend.map_frame_analyse (k : Backend pool engine) (threshold : Binary.Single) (e : engine)
    (frames : List WireFrame) : (k.analyse threshold e frames).1.map Analysis.frame = frames := by
  induction frames generalizing e with
  | nil => rfl
  | cons frame frames ih => exact congrArg _ (ih _)

theorem Backend.length_analyse (k : Backend pool engine) (threshold : Binary.Single) (e : engine)
    (frames : List WireFrame) : (k.analyse threshold e frames).1.length = frames.length := by
  conv => rhs; rw [← k.map_frame_analyse threshold e frames]
  exact (List.length_map _).symm

theorem Backend.analyse_cons (k : Backend pool engine) (threshold : Binary.Single) (e : engine)
    (frame : WireFrame) (frames : List WireFrame) :
    k.analyse threshold e (frame :: frames) =
      (⟨frame, threshold, (k.process e frame.decode threshold).1⟩ ::
          (k.analyse threshold (k.process e frame.decode threshold).2 frames).1,
        (k.analyse threshold (k.process e frame.decode threshold).2 frames).2) := rfl

/-- **An engine goes on from where it stopped.** -/
theorem Backend.analyse_append (k : Backend pool engine) (threshold : Binary.Single) (e : engine)
    (frames frames' : List WireFrame) :
    k.analyse threshold e (frames ++ frames') =
      ((k.analyse threshold e frames).1 ++
          (k.analyse threshold (k.analyse threshold e frames).2 frames').1,
        (k.analyse threshold (k.analyse threshold e frames).2 frames').2) := by
  induction frames generalizing e with
  | nil => rfl
  | cons frame frames ih =>
    rw [List.cons_append, analyse_cons, ih, analyse_cons, List.cons_append]

/-- **A faithful engine** hands every frame back as voice, or fails on it. -/
def Backend.Faithful (k : Backend pool engine) : Prop :=
  ∀ e frame threshold verdict, (k.process e frame threshold).1 = .ok verdict →
    verdict.voice = true ∧ verdict.samples = frame

theorem Backend.Faithful.analyse {k : Backend pool engine} (hk : k.Faithful)
    (threshold : Binary.Single) (e : engine) (frames : List WireFrame) :
    ∀ a ∈ (k.analyse threshold e frames).1, a.Faithful := by
  induction frames generalizing e with
  | nil => exact fun a ha => absurd ha List.not_mem_nil
  | cons frame frames ih =>
    refine List.forall_mem_cons.2 ⟨fun verdict hverdict => ?_, ih _⟩
    exact hk e frame.decode threshold verdict hverdict

/-- **A stream cleaned in one piece**: its frames as the engine leaves them, then the bytes that fill no
frame as they are. -/
def Backend.clean (k : Backend pool engine) (threshold : Binary.Single) (e : engine)
    (stream : Bytes) : Bytes :=
  WireFrame.join ((k.analyse threshold e (Accumulator.cut stream).1).1.map Analysis.output) ++
    (Accumulator.cut stream).2

/-- Less than a frame is clean as it is. -/
theorem Backend.clean_of_lt (k : Backend pool engine) (threshold : Binary.Single) (e : engine)
    {stream : Bytes} (h : stream.length < frameBytes) : k.clean threshold e stream = stream := by
  rw [clean, Accumulator.cut_of_lt h]
  rfl

/-- Cleaning keeps the length, and the bytes that fill no frame. -/
theorem Backend.length_clean (k : Backend pool engine) (threshold : Binary.Single) (e : engine)
    (stream : Bytes) :
    (k.clean threshold e stream).length = stream.length ∧
      (k.clean threshold e stream).drop (stream.length - stream.length % frameBytes) =
        stream.drop (stream.length - stream.length % frameBytes) := by
  obtain ⟨frames, hframes⟩ : ∃ frames, (Accumulator.cut stream).1 = frames := ⟨_, rfl⟩
  obtain ⟨rest, hrest⟩ : ∃ rest, (Accumulator.cut stream).2 = rest := ⟨_, rfl⟩
  have hlt : rest.length < frameBytes := hrest ▸ Accumulator.cut_rest_lt stream
  have hstream : stream = WireFrame.join frames ++ rest := by
    rw [← hframes, ← hrest, Accumulator.cut_join]
  have hclean : k.clean threshold e stream =
      WireFrame.join ((k.analyse threshold e frames).1.map Analysis.output) ++ rest := by
    rw [clean, hframes, hrest]
  have hjoin : (WireFrame.join frames).length = frameBytes * frames.length :=
    WireFrame.length_join frames
  have houtput : (WireFrame.join ((k.analyse threshold e frames).1.map Analysis.output)).length =
      frameBytes * frames.length := by
    rw [WireFrame.length_join, List.length_map, k.length_analyse]
  have hlength : stream.length = frameBytes * frames.length + rest.length := by
    rw [hstream, List.length_append, hjoin]
  have hframes : stream.length - stream.length % frameBytes = frameBytes * frames.length := by
    rw [hlength, Nat.mul_add_mod, Nat.mod_eq_of_lt hlt, Nat.add_sub_cancel]
  rw [hframes, hclean]
  refine ⟨?_, ?_⟩
  · rw [hlength, List.length_append, houtput]
  · rw [List.drop_left' houtput, hstream, List.drop_left' hjoin]

/-! ### Payloads -/

namespace Filter

section Suppress

variable (k : Backend pool engine) (f : Filter engine) (e : engine) (payload : Bytes)

/-- The bytes of the analysed frames, as the engine has left them. -/
def processed : Bytes := WireFrame.join ((f.suppress k e payload).analyses.map Analysis.output)

theorem analyses_suppress : (f.suppress k e payload).analyses =
    (k.analyse f.settings.threshold e (f.accumulator.feed payload).1).1 := by
  simp only [suppress]
  split <;> rfl

theorem engine_suppress : (f.suppress k e payload).engine =
    (k.analyse f.settings.threshold e (f.accumulator.feed payload).1).2 := by
  simp only [suppress]
  split <;> rfl

/-- **What is left over waits**, if that is wanted and there was a frame. -/
theorem suppress_of_waits (hcarry : f.settings.carryRemainder = true)
    (hframe : frameBytes ≤ (f.accumulator.waiting ++ payload).length) :
    (f.suppress k e payload).payload = f.processed k e payload ∧
      (f.suppress k e payload).accumulator = (f.accumulator.feed payload).2 := by
  have hsome : (f.accumulator.feed payload).1.isEmpty = false := by
    have hlen := (f.accumulator.length_feed payload).1
    have hpos := Nat.div_pos hframe (by decide)
    rw [List.isEmpty_eq_false_iff_exists_mem]
    exact List.exists_mem_of_length_pos (by omega)
  simp only [processed, suppress, hcarry, hsome, Bool.not_false, Bool.and_self, if_true, and_self]

/-- **What is left over goes out raw** otherwise. -/
theorem suppress_of_flushes (h : f.settings.carryRemainder = false ∨
    (f.accumulator.waiting ++ payload).length < frameBytes) :
    (f.suppress k e payload).payload =
        f.processed k e payload ++ (f.accumulator.feed payload).2.waiting ∧
      (f.suppress k e payload).accumulator = .empty := by
  have hcond : (f.settings.carryRemainder && !(f.accumulator.feed payload).1.isEmpty) = false := by
    rcases h with hcarry | hshort
    · rw [hcarry, Bool.false_and]
    · have hlen := (f.accumulator.length_feed payload).1
      rw [Nat.div_eq_of_lt hshort] at hlen
      rw [List.length_eq_zero_iff.1 hlen, List.isEmpty_nil, Bool.not_true, Bool.and_false]
  simp only [processed, suppress, hcond, Bool.false_eq_true, if_false]
  exact ⟨rfl, rfl⟩

/-- **A payload in front of which nothing waits is cleaned** as it is, where nothing is to wait behind it
either. -/
theorem suppress_eq_clean (hcarry : f.settings.carryRemainder = false)
    (hwaiting : f.accumulator.waiting = []) :
    (f.suppress k e payload).payload = k.clean f.settings.threshold e payload := by
  have hfeed : f.accumulator.feed payload =
      ((Accumulator.cut payload).1, ⟨(Accumulator.cut payload).2⟩) := by
    rw [Accumulator.feed, hwaiting, List.nil_append]
  rw [(f.suppress_of_flushes k e payload (.inl hcarry)).1, processed, analyses_suppress, hfeed]
  rfl

theorem length_processed : (f.processed k e payload).length =
    frameBytes * ((f.accumulator.waiting ++ payload).length / frameBytes) := by
  rw [processed, WireFrame.length_join, List.length_map, analyses_suppress, Backend.length_analyse,
    (f.accumulator.length_feed payload).1]

/-- A payload is either held back in part, or sent with all that waited. -/
theorem suppress_cases :
    ((f.settings.carryRemainder = true ∧ frameBytes ≤ (f.accumulator.waiting ++ payload).length) ∧
      (f.suppress k e payload).payload = f.processed k e payload ∧
      (f.suppress k e payload).accumulator = (f.accumulator.feed payload).2) ∨
    ((f.settings.carryRemainder = false ∨
        (f.accumulator.waiting ++ payload).length < frameBytes) ∧
      (f.suppress k e payload).payload =
        f.processed k e payload ++ (f.accumulator.feed payload).2.waiting ∧
      (f.suppress k e payload).accumulator = .empty) := by
  rcases Bool.eq_false_or_eq_true f.settings.carryRemainder with hcarry | hcarry
  · rcases Nat.lt_or_ge (f.accumulator.waiting ++ payload).length frameBytes with hlt | hge
    · exact .inr ⟨.inr hlt, f.suppress_of_flushes k e payload (.inr hlt)⟩
    · exact .inl ⟨⟨hcarry, hge⟩, f.suppress_of_waits k e payload hcarry hge⟩
  · exact .inr ⟨.inl hcarry, f.suppress_of_flushes k e payload (.inl hcarry)⟩

/-- **No byte is lost or made**: what is sent and what waits are as many bytes as there were. -/
theorem length_suppress :
    (f.suppress k e payload).payload.length + (f.suppress k e payload).accumulator.waiting.length =
      (f.accumulator.waiting ++ payload).length := by
  have hprocessed := f.length_processed k e payload
  have hrest := (f.accumulator.length_feed payload).2
  have hdiv := Nat.div_add_mod (f.accumulator.waiting ++ payload).length frameBytes
  rcases f.suppress_cases k e payload with ⟨-, hpayload, hwaiting⟩ | ⟨-, hpayload, hwaiting⟩
  · rw [hpayload, hwaiting]
    omega
  · rw [hpayload, hwaiting, List.length_append]
    change _ + 0 = _
    omega

/-- Less than a frame is left waiting. -/
theorem waiting_suppress_lt :
    (f.suppress k e payload).accumulator.waiting.length < frameBytes := by
  rcases f.suppress_cases k e payload with ⟨-, -, hwaiting⟩ | ⟨-, -, hwaiting⟩
  · rw [hwaiting, (f.accumulator.length_feed payload).2]
    exact Nat.mod_lt _ (by decide)
  · rw [hwaiting]
    decide

variable {k f e payload} in
/-- **A faithful engine changes no byte**: what is sent and what waits are the bytes that there were,
in their order. -/
theorem suppress_of_faithful
    (h : ∀ a ∈ (f.suppress k e payload).analyses, a.Faithful) :
    (f.suppress k e payload).payload ++ (f.suppress k e payload).accumulator.waiting =
      f.accumulator.waiting ++ payload := by
  -- every frame goes out as it came, and the frames and the rest are all that there was
  have hprocessed : f.processed k e payload = WireFrame.join (f.accumulator.feed payload).1 := by
    rw [processed, List.map_congr_left fun a ha => Analysis.output_of_faithful (h a ha),
      analyses_suppress, Backend.map_frame_analyse]
  rcases f.suppress_cases k e payload with ⟨-, hpayload, hwaiting⟩ | ⟨-, hpayload, hwaiting⟩
  · rw [hpayload, hwaiting, hprocessed, Accumulator.join_feed]
  · rw [hpayload, hwaiting, hprocessed, Accumulator.join_feed]
    exact List.append_nil _

end Suppress

end Filter

end NoiseFilter
