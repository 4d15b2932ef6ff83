import NoiseFilter.Proofs.Replay.Totals
import NoiseFilter.Proofs.Stream.Ledger

/-!
# Replays in other packets

How a recording is cut into packets is not to be heard. There are two ways to get its frames to the
engine unbroken: to let incomplete ones wait, in packets of a frame or more, or to use packets that
consist of frames. A configuration that does either is one that **keeps frames together**
(`Configuration.KeepsFrames`), and all of these come to the same: the recording, cleaned in one piece,
with the same outcomes of its frames (`Replay.run_recut`).

The end of the recording that fills no frame reaches the sink in three ways: a short last packet passes
unprocessed, a longer one is sent with the end behind its frames, and what waited is drained. As bytes
these are the same, and so a sink with a limit stops at the same byte (`Sink.writeAll_congr`).
-/

namespace NoiseFilter

variable {pool engine : Type}

/-! ### Sinks -/

namespace Sink

/-- **A sink with a limit takes the bytes of all pieces up to it**, and reports whether that was all. -/
theorem writeAll_limited (pieces : List Bytes) : ∀ (s : Sink) (room : Nat), s.room = some room →
    (s.writeAll pieces).1 = decide (pieces.flatten.length ≤ room) ∧
      (s.writeAll pieces).2.toBytes = s.toBytes ++ pieces.flatten.take room := by
  induction pieces with
  | nil =>
    intro s room _
    rw [List.flatten_nil, List.take_nil, List.append_nil]
    exact ⟨(decide_eq_true (Nat.zero_le _)).symm, rfl⟩
  | cons piece pieces ih =>
    intro s room hroom
    have hone := s.toBytes_write_limited piece room hroom
    rw [writeAll, List.flatten_cons, List.length_append, List.take_append]
    by_cases hfits : piece.length ≤ room
    · have hwrite : s.write piece = (true, ⟨some (room - piece.length), piece :: s.pieces⟩) := by
        rw [write, hroom]
        exact if_pos hfits
      obtain ⟨htaken, hbytes⟩ :=
        ih ⟨some (room - piece.length), piece :: s.pieces⟩ (room - piece.length) rfl
      rw [hwrite] at hone ⊢
      rw [← List.append_assoc, ← hone]
      refine ⟨htaken.trans (decide_eq_decide.2 ?_), hbytes⟩
      omega
    · -- the first piece is too much, and nothing is written after it
      have hwrite : s.write piece = (false, ⟨some 0, piece.take room :: s.pieces⟩) := by
        rw [write, hroom]
        exact if_neg hfits
      rw [hwrite] at hone ⊢
      rw [Nat.sub_eq_zero_of_le (by omega), List.take_zero, List.append_nil, ← hone]
      refine ⟨(decide_eq_false ?_).symm, rfl⟩
      omega

/-- **It is the bytes that are written**, and not how they were cut into pieces. -/
theorem writeAll_congr (s : Sink) {pieces pieces' : List Bytes}
    (h : pieces.flatten = pieces'.flatten) :
    (s.writeAll pieces).1 = (s.writeAll pieces').1 ∧
      (s.writeAll pieces).2.toBytes = (s.writeAll pieces').2.toBytes := by
  cases hroom : s.room with
  | none =>
    obtain ⟨htaken, hbytes⟩ := writeAll_unlimited pieces s hroom
    obtain ⟨htaken', hbytes'⟩ := writeAll_unlimited pieces' s hroom
    exact ⟨htaken.trans htaken'.symm, by rw [hbytes, hbytes', h]⟩
  | some room =>
    obtain ⟨htaken, hbytes⟩ := writeAll_limited pieces s room hroom
    obtain ⟨htaken', hbytes'⟩ := writeAll_limited pieces' s room hroom
    exact ⟨by rw [htaken, htaken', h], by rw [hbytes, hbytes', h]⟩

end Sink

/-! ### Outcomes -/

namespace Filter

/-- The frames of a payload are counted under their outcomes. -/
theorem get_handled (k : Backend pool engine) (f : Filter engine) (e : engine) (payload : Bytes)
    {i : Counter} (hi : i ∈ Counter.frames) :
    (f.handled k e payload).counters.get i =
      f.counters.get i + ((f.handle k e payload).analyses.map Analysis.counter).count i := by
  obtain ⟨s, hs⟩ : ∃ s, f.handle k e payload = s := ⟨_, rfl⟩
  rw [handled, hs]
  cases h : f.isShort payload with
  | true =>
    rw [handle_of_isShort k e h] at hs
    subst hs
    rw [if_pos rfl, Counters.get_packetPassed, Fate.count_entries_eq_zero _ hi]
    rfl
  | false =>
    rw [if_neg Bool.false_ne_true, Counters.get_packetSuppressed, Fate.count_entries_eq_zero _ hi,
      Analysis.get_tally, Nat.add_zero]

/-- **The frames of a flow** are counted under their outcomes. -/
theorem get_flow (k : Backend pool engine) (payloads : List Bytes) {i : Counter}
    (hi : i ∈ Counter.frames) : ∀ (f : Filter engine) (e : engine),
      (f.flow k e payloads).filter.counters.get i =
        f.counters.get i + ((f.flow k e payloads).analyses.map Analysis.counter).count i := by
  induction payloads with
  | nil => exact fun f e => rfl
  | cons payload payloads ih =>
    intro f e
    rw [flow, List.map_append, List.count_append, ← Nat.add_assoc, ← f.get_handled k e payload hi]
    exact ih _ _

end Filter

/-! ### Configurations -/

namespace Configuration

/-- **The same configuration with another cut**: other packets, and another rule for incomplete frames. -/
def recut (c : Configuration) (packetBytes : UInt64) (carryRemainder : Bool) : Configuration :=
  { c with packetBytes, filter := { c.filter with carryRemainder } }

/-- **Frames are kept together**: incomplete ones wait, in packets of a frame or more, or else the payloads
are made of frames. -/
def KeepsFrames (c : Configuration) : Prop :=
  if c.filter.carryRemainder then frameBytes ≤ c.packetBytes.toNat else frameBytes ∣ c.payloadBytes

instance (c : Configuration) : Decidable c.KeepsFrames :=
  inferInstanceAs (Decidable (if c.filter.carryRemainder then frameBytes ≤ c.packetBytes.toNat
    else frameBytes ∣ c.payloadBytes))

/-- Payloads of the configured size then keep frames together. -/
theorem KeepsFrames.payloadBytes {c : Configuration} (h : c.KeepsFrames) :
    c.filter.KeepsFrames c.payloadBytes := by
  rw [KeepsFrames] at h
  rw [Settings.KeepsFrames]
  cases hcarry : c.filter.carryRemainder with
  | false =>
    rw [hcarry] at h
    exact h
  | true =>
    rw [hcarry, if_pos rfl] at h
    -- a frame is made of whole samples, and so rounding leaves one
    have hframe : frameBytes = 960 := rfl
    have hsample : sampleBytes = 2 := rfl
    rw [if_pos rfl, Configuration.payloadBytes, hframe, hsample]
    rw [hframe] at h
    omega

end Configuration

/-! ### Replays -/

namespace Replay

/-- How many frames a replay reports under each outcome. -/
def Summary.outcomes (s : Summary) : List Nat := Counter.frames.map s.counters.get

/-- **A replay that keeps frames together cleans its recording in one piece**, and reports the frames of
that. -/
theorem pieces_eq_clean (k : Backend pool engine) (e : engine) (pcm : Bytes) {c : Configuration}
    (henabled : c.filter.enabled = true) (hkeeps : c.KeepsFrames) :
    (pieces k e pcm c).flatten = k.clean c.filter.threshold e pcm ∧
      (summary k e pcm c).outcomes = Counter.frames.map fun i =>
        ((k.analyse c.filter.threshold e (Accumulator.cut pcm).1).1.map Analysis.counter).count i := by
  obtain ⟨source, hsource⟩ : ∃ source,
      Packetizer.new pcm c.payloadBytes c.payloadType c.ssrc = source := ⟨_, rfl⟩
  have hflatten : source.payloads.flatten = pcm := hsource ▸ flatten_payloads_new pcm c
  have hlengths : ∀ payload ∈ source.payloads.dropLast, c.filter.KeepsFrames payload.length := by
    intro payload hmem
    rw [source.length_of_mem_dropLast_payloads payload hmem, ← hsource, payloadBytes_new]
    exact hkeeps.payloadBytes
  obtain ⟨hclean, hanalyses⟩ := Filter.flow_eq_clean k source.payloads e
    (Filter.coherent_new c.ssrc c.filter) (show [].length < frameBytes by decide) hlengths
  change _ = k.clean c.filter.threshold e source.payloads.flatten at hclean
  change _ = (k.analyse c.filter.threshold e (Accumulator.cut source.payloads.flatten).1).1 at hanalyses
  rw [hflatten] at hclean hanalyses
  rw [summary, pieces, hsource, henabled, ← hclean, ← hanalyses]
  refine ⟨?_, List.map_congr_left fun i hi => ?_⟩
  · rw [if_pos rfl, List.flatten_append, List.flatten_singleton]
  · have hflow := Filter.get_flow k source.payloads hi (Filter.new c.ssrc c.filter) e
    have hzero : (Filter.new c.ssrc c.filter : Filter engine).counters.get i = 0 := by
      cases i <;> rfl
    rw [hzero, Nat.zero_add] at hflow
    exact hflow

/-- **It does not matter how a recording is cut**, as long as frames are kept together. Two replays of it,
with engines that are created alike, write the same bytes into any sink, and end alike: both with a full
sink, or both with the same outcomes of frames. A sink without a limit has got the recording, cleaned in
one piece. -/
theorem run_recut (k : Backend pool engine) (p p' : pool) {e : engine}
    (hcreate : (k.create p).1 = .ok e) (hcreate' : (k.create p').1 = .ok e) (pcm : Bytes)
    (c : Configuration) (henabled : c.filter.enabled = true) (packetBytes packetBytes' : UInt64)
    (carry carry' : Bool) (hkeeps : (c.recut packetBytes carry).KeepsFrames)
    (hkeeps' : (c.recut packetBytes' carry').KeepsFrames)
    (hsize : (c.recut packetBytes carry).payloadBytes * 2 + 256 ≤ Configuration.memoryLimit)
    (hsize' : (c.recut packetBytes' carry').payloadBytes * 2 + 256 ≤ Configuration.memoryLimit)
    (sink : Sink) :
    (run k p pcm (c.recut packetBytes carry) sink).2.toBytes =
        (run k p' pcm (c.recut packetBytes' carry') sink).2.toBytes ∧
      (run k p pcm (c.recut packetBytes carry) sink).1.map Summary.outcomes =
        (run k p' pcm (c.recut packetBytes' carry') sink).1.map Summary.outcomes ∧
      (sink.room = none →
        (run k p pcm (c.recut packetBytes carry) sink).2.toBytes =
            sink.toBytes ++ k.clean c.filter.threshold e pcm ∧
          ∃ s, (run k p pcm (c.recut packetBytes carry) sink).1 = .ok s ∧
            s.outcomes = Counter.frames.map fun i =>
              ((k.analyse c.filter.threshold e (Accumulator.cut pcm).1).1.map
                Analysis.counter).count i) := by
  obtain ⟨hclean, houtcomes⟩ :=
    pieces_eq_clean k e pcm (c := c.recut packetBytes carry) henabled hkeeps
  obtain ⟨hclean', houtcomes'⟩ :=
    pieces_eq_clean k e pcm (c := c.recut packetBytes' carry') henabled hkeeps'
  obtain ⟨htaken, hbytes⟩ := sink.writeAll_congr (hclean.trans hclean'.symm)
  rw [run_eq k p hcreate pcm _ sink hsize, run_eq k p' hcreate' pcm _ sink hsize', ending_eq,
    ending_eq, htaken]
  refine ⟨hbytes, ?_, fun hroom => ?_⟩
  · rcases (sink.writeAll (pieces k e pcm (c.recut packetBytes' carry'))).1 with _ | _
    · rfl
    · exact congrArg Except.ok (houtcomes.trans houtcomes'.symm)
  · obtain ⟨hall, hwritten⟩ := Sink.writeAll_unlimited _ sink hroom
    rw [← htaken, hall]
    exact ⟨by rw [hwritten, hclean]; rfl, _, rfl, houtcomes⟩

/-- A recording that ends inside a frame: the same is written of it, in packets of a frame and a bit where
incomplete frames wait, and in packets of two frames where they do not. -/
theorem run_recut_of_zeros :
    (run Network.inert.backend () (Bytes.zeros 2501)
        ((⟨Filter.carrying, 7, 111, 7⟩ : Configuration).recut 1001 true) .unlimited).2.toBytes =
      (run Network.inert.backend () (Bytes.zeros 2501)
        ((⟨Filter.carrying, 7, 111, 7⟩ : Configuration).recut 1920 false) .unlimited).2.toBytes ∧
    (run Network.inert.backend () (Bytes.zeros 2501)
        ((⟨Filter.carrying, 7, 111, 7⟩ : Configuration).recut 1001 true) .unlimited).2.toBytes =
      Network.inert.backend.clean Filter.carrying.threshold () (Bytes.zeros 2501) := by
  obtain ⟨hsame, -, hreference⟩ := run_recut Network.inert.backend () () rfl rfl (Bytes.zeros 2501)
    ⟨Filter.carrying, 7, 111, 7⟩ rfl 1001 1920 true false (by decide) (by decide) (by decide)
    (by decide) .unlimited
  exact ⟨hsame, (hreference rfl).1⟩

end Replay

end NoiseFilter
