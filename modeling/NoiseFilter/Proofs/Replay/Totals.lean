import NoiseFilter.Engine.Network
import NoiseFilter.Proofs.Replay.Passage
import NoiseFilter.Proofs.Stream.Splitting

/-!
# What a replay comes to

A replay into a sink without a limit succeeds, whatever the audio and whatever its configuration, as long
as the read buffer can be had and so can an engine. `Replay.run_totals` says what it comes to: it writes
as many bytes as it was given, in as many packets as that takes; every packet is counted once, and none
falls back; and the frames that are counted are all there are.

How many these are depends on what happens to the end of a packet that fills no frame. Where it goes out
raw, every packet has its own frames. Where it waits, the frames are those of the whole recording, but
only if its packets hold a frame: of smaller ones each is too short by itself, and none is ever waited
for.
-/

namespace NoiseFilter

namespace Replay

variable {pool engine : Type}

/-- **What a replay comes to**: its summary `s` and the bytes that it has written. -/
structure Totals (pcm : Bytes) (c : Configuration) (s : Summary) (written : Bytes) : Prop where
  length : written.length = pcm.length
  bytesIn : s.bytesIn = pcm.length
  bytesOut : s.bytesOut = pcm.length
  packets : s.packets = (pcm.length + c.payloadBytes - 1) / c.payloadBytes
  filtered : s.filtered = c.filter.enabled
  disabled : c.filter.enabled = false → written = pcm ∧ s.counters = .zero
  counted : c.filter.enabled = true → s.counters.packets = s.packets ∧ s.counters.fallbacks = 0
  flushed : c.filter.enabled = true → c.filter.carryRemainder = false →
    s.counters.frames = (Packetizer.new pcm c.payloadBytes c.payloadType c.ssrc).payloads.foldr
      (fun payload frames => payload.length / frameBytes + frames) 0
  carried : c.filter.enabled = true → c.filter.carryRemainder = true →
    s.counters.frames = if frameBytes ≤ c.payloadBytes then pcm.length / frameBytes else 0

/-- Its payloads are the recording. -/
theorem flatten_payloads_new (pcm : Bytes) (c : Configuration) :
    (Packetizer.new pcm c.payloadBytes c.payloadType c.ssrc).payloads.flatten = pcm :=
  Packetizer.flatten_payloads _

/-- **The frames of carried packets** are those of the recording, or none if packets are too small. -/
theorem length_analyses_of_carried (k : Backend pool engine) (e : engine) (pcm : Bytes)
    (c : Configuration) (hcarry : c.filter.carryRemainder = true) :
    ((Filter.new c.ssrc c.filter).flow k e
        (Packetizer.new pcm c.payloadBytes c.payloadType c.ssrc).payloads).analyses.length =
      if frameBytes ≤ c.payloadBytes then pcm.length / frameBytes else 0 := by
  obtain ⟨source, hsource⟩ : ∃ source,
      Packetizer.new pcm c.payloadBytes c.payloadType c.ssrc = source := ⟨_, rfl⟩
  have hsize : source.payloadBytes = c.payloadBytes := hsource ▸ payloadBytes_new pcm c
  have hflatten : source.payloads.flatten = pcm := hsource ▸ flatten_payloads_new pcm c
  rw [hsource]
  split
  · next hlarge =>
    -- the recording is cleaned in one piece
    obtain ⟨-, hanalyses⟩ := Filter.flow_eq_clean k source.payloads e
      (Filter.coherent_new c.ssrc c.filter) (show [].length < frameBytes by decide)
      fun payload hmem => by
        rw [source.length_of_mem_dropLast_payloads payload hmem, hsize]
        change c.filter.KeepsFrames c.payloadBytes
        rw [Settings.KeepsFrames, hcarry]
        exact hlarge
    rw [hanalyses, k.length_analyse, (Accumulator.length_cut _).1, hflatten]
    rfl
  · next hsmall =>
    have hshort : ∀ payload ∈ source.payloads, payload.length < frameBytes := fun payload hmem => by
      have hle := source.length_le_of_mem_payloads payload hmem
      omega
    rw [(Filter.flow_of_short k source.payloads e hshort rfl).2]
    rfl

/-- **The pieces of a replay have the length of its audio**, and are it where nothing is suppressed. -/
theorem flatten_pieces (k : Backend pool engine) (e : engine) (pcm : Bytes) (c : Configuration) :
    (pieces k e pcm c).flatten.length = pcm.length ∧
      (c.filter.enabled = false → (pieces k e pcm c).flatten = pcm) := by
  obtain ⟨source, hsource⟩ : ∃ source,
      Packetizer.new pcm c.payloadBytes c.payloadType c.ssrc = source := ⟨_, rfl⟩
  have hflatten : source.payloads.flatten = pcm := hsource ▸ flatten_payloads_new pcm c
  rw [pieces, hsource]
  cases henabled : c.filter.enabled with
  | false =>
    rw [if_neg Bool.false_ne_true, hflatten]
    exact ⟨rfl, fun _ => rfl⟩
  | true =>
    have hlength := Filter.length_flow k source.payloads (Filter.new c.ssrc c.filter) e
    rw [hflatten] at hlength
    refine ⟨?_, fun h => absurd h.symm Bool.false_ne_true⟩
    rw [if_pos rfl, List.flatten_append, List.flatten_singleton, List.length_append, hlength]
    exact Nat.zero_add _

/-- What a replay reports is what it comes to. -/
theorem totals_summary (k : Backend pool engine) (e : engine) (pcm : Bytes) (c : Configuration) :
    Totals pcm c (summary k e pcm c) (pieces k e pcm c).flatten := by
  obtain ⟨hlength, hdisabled⟩ := flatten_pieces k e pcm c
  have hpackets : (Packetizer.new pcm c.payloadBytes c.payloadType c.ssrc).payloads.length =
      (pcm.length + c.payloadBytes - 1) / c.payloadBytes := by
    rw [Packetizer.length_payloads, payloadBytes_new]
    rfl
  obtain ⟨hcounted, hframes, hfallbacks⟩ := Filter.counters_flow k
    (Packetizer.new pcm c.payloadBytes c.payloadType c.ssrc).payloads (Filter.new c.ssrc c.filter) e
  have hcounters : c.filter.enabled = true → (summary k e pcm c).counters =
      ((Filter.new c.ssrc c.filter).flow k e
        (Packetizer.new pcm c.payloadBytes c.payloadType c.ssrc).payloads).filter.counters := by
    intro henabled
    rw [summary, henabled]
    rfl
  have hzero : (Filter.new c.ssrc c.filter : Filter engine).counters.frames = 0 := rfl
  refine ⟨hlength, rfl, hlength, hpackets, rfl, fun henabled => ⟨hdisabled henabled, ?_⟩,
    fun henabled => ⟨?_, ?_⟩, fun henabled hcarry => ?_, fun henabled hcarry => ?_⟩
  · rw [summary, henabled]
    rfl
  · rw [hcounters henabled, hcounted]
    exact Nat.zero_add _
  · rw [hcounters henabled, hfallbacks]
    rfl
  · rw [hcounters henabled, hframes, hzero, Nat.zero_add,
      Filter.length_analyses_flow_of_flushed k _ e (Filter.coherent_new c.ssrc c.filter) hcarry]
  · rw [hcounters henabled, hframes, hzero, Nat.zero_add,
      length_analyses_of_carried k e pcm c hcarry]

/-- **Replays succeed and lose nothing.** With an engine to be had, and a read buffer that memory can
hold, every recording is replayed to its end under every configuration, whatever the engine says to its
frames. -/
theorem run_totals (k : Backend pool engine) (p : pool) {e : engine} (hcreate : (k.create p).1 = .ok e)
    (pcm : Bytes) (c : Configuration)
    (hsize : c.payloadBytes * 2 + 256 ≤ Configuration.memoryLimit) :
    ∃ s sink, run k p pcm c .unlimited = (.ok s, sink) ∧ Totals pcm c s sink.toBytes := by
  obtain ⟨htaken, hwritten⟩ := Sink.writeAll_unlimited (pieces k e pcm c) .unlimited rfl
  refine ⟨summary k e pcm c, (Sink.unlimited.writeAll (pieces k e pcm c)).2, ?_, ?_⟩
  · rw [run_eq k p hcreate pcm c .unlimited hsize]
    rcases hwriting : Sink.unlimited.writeAll (pieces k e pcm c) with ⟨_ | _, sink⟩
    · rw [hwriting] at htaken
      cases htaken
    · rfl
  · rw [hwritten]
    exact totals_summary k e pcm c

/-- A recording that ends inside a sample, in packets of a frame and a bit, whose type takes eight bits:
its two frames are analysed, and all of its bytes are written. -/
theorem run_totals_of_odd : ∃ s sink,
    run Network.inert.backend () (Bytes.zeros 2501) ⟨Filter.carrying, 1001, 200, 7⟩ .unlimited =
        (.ok s, sink) ∧
      sink.toBytes.length = 2501 ∧ s.packets = 3 ∧ s.counters.frames = 2 := by
  obtain ⟨s, sink, hrun, htotals⟩ := run_totals Network.inert.backend () rfl (Bytes.zeros 2501)
    ⟨Filter.carrying, 1001, 200, 7⟩ (by decide)
  have hlength := htotals.length
  have hpackets := htotals.packets
  have hframes := htotals.carried rfl rfl
  rw [Bytes.length_zeros] at hlength hpackets hframes
  exact ⟨s, sink, hrun, hlength, hpackets, hframes⟩

end Replay

end NoiseFilter
