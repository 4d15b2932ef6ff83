import NoiseFilter.Proofs.Replay.Packets
import NoiseFilter.Replay.Run

/-!
# What a replay writes

A replay is a flow. Its packets are made for its own buffer, which has room for a header, a payload and
a frame that waited, so that no packet is refused and none falls back; what comes out of the stream can
be read; and the sink is the one thing that may end it early. So a replay writes its **pieces**, one
after the other (`Replay.run_eq`), and what these are is a matter of `Filter.flow` alone:

* without suppression, the payloads of the packetizer;
* with it, what a new filter sends on for them, and then what waits in it at the end.

The buffer is twice as large as a payload and 256 bytes more, which is too little for a small payload with
a frame in front of it. But nothing waits in front of a small payload: all payloads but the last are of
one size, and behind a payload of less than a frame nothing waits (`Replay.Roomy`).
-/

namespace NoiseFilter

open Rtp

variable {pool engine : Type}

/-! ### Sinks -/

/-- **Pieces written in order**, up to the first that is refused. -/
def Sink.writeAll : Sink → List Bytes → Bool × Sink
  | s, [] => (true, s)
  | s, piece :: pieces =>
    match s.write piece with
    | (false, s) => (false, s)
    | (true, s) => s.writeAll pieces

namespace Sink

theorem writeAll_append (pieces pieces' : List Bytes) : ∀ s : Sink,
    s.writeAll (pieces ++ pieces') = match s.writeAll pieces with
      | (false, s) => (false, s)
      | (true, s) => s.writeAll pieces' := by
  induction pieces with
  | nil => exact fun s => rfl
  | cons piece pieces ih =>
    intro s
    rw [List.cons_append, writeAll, writeAll]
    rcases s.write piece with ⟨_ | _, s'⟩
    · rfl
    · exact ih s'

/-- One piece. -/
theorem writeAll_singleton (s : Sink) (piece : Bytes) : s.writeAll [piece] = s.write piece := by
  rw [writeAll]
  rcases s.write piece with ⟨_ | _, s'⟩ <;> rfl

/-- **A sink without a limit takes all pieces.** -/
theorem writeAll_unlimited (pieces : List Bytes) : ∀ s : Sink, s.room = none →
    (s.writeAll pieces).1 = true ∧ (s.writeAll pieces).2.toBytes = s.toBytes ++ pieces.flatten := by
  induction pieces with
  | nil => exact fun s _ => ⟨rfl, (List.append_nil _).symm⟩
  | cons piece pieces ih =>
    intro s hroom
    have hwrite : s.write piece = (true, { s with pieces := piece :: s.pieces }) := by
      rw [write, hroom]
    have hone := s.toBytes_write_unlimited piece hroom
    obtain ⟨htaken, hbytes⟩ := ih { s with pieces := piece :: s.pieces } hroom
    rw [hwrite] at hone
    rw [writeAll, hwrite, List.flatten_cons, ← List.append_assoc, ← hone]
    exact ⟨htaken, hbytes⟩

end Sink

namespace Replay

/-! ### One packet -/

/-- Without audio a passage is at its end. -/
theorem forward_of_nil (k : Backend pool engine) {source : Packetizer} (h : source.remaining = [])
    (p : pool) (buffer : Buffer) (so : Passage engine) (sink : Sink) :
    forward k source p buffer so sink = (.ok so, sink) := by
  rw [forward]
  split
  · rfl
  · next why _ _ hne hread =>
    rw [Packetizer.read_of_nil h] at hread
    cases hread
    exact absurd rfl hne
  · next hread =>
    rw [Packetizer.read_of_nil h] at hread
    cases hread

/-- **One packet more**: if the stream hands on a packet for it, the payload of that is written. -/
theorem forward_of_read {k : Backend pool engine} {source : Packetizer} {p q : pool}
    {buffer buffer' : Buffer} (so : Passage engine) {stream : Stream engine} (sink : Sink)
    {d : Delivery} {notices : List Notice} {analyses : List Analysis} {what : Packet}
    (h : source.remaining ≠ []) (hfits : source.packet.length ≤ buffer.size)
    (hread : so.stream.read k p (.ok ⟨source.packet.length, []⟩) (buffer.overwrite source.packet) =
      (⟨.delivered d, buffer', notices, analyses⟩, stream, q))
    (hwhat : buffer'.packet? d.length = some what) :
    forward k source p buffer so sink = match sink.write what.payload with
      | (false, sink) => (.error .sinkFull, sink)
      | (true, sink) => forward k source.advance q buffer'
          ⟨stream, so.packets + 1, so.bytesOut + what.payload.length⟩ sink := by
  have hdecode := (Buffer.packet?_eq_some.1 hwhat).2
  rw [← Buffer.take_eq] at hdecode
  rw [forward]
  split <;> rename_i hsource <;> rw [Packetizer.read_of_fits h hfits] at hsource <;> cases hsource
  rw [hread]
  cases hwrite : sink.write what.payload with
  | mk taken sink' => cases taken <;> simp only [hdecode, hwrite]

/-! ### A whole passage -/

/-- How writing ends: with the result if all was taken, and with a full sink otherwise. -/
def ending {α : Type} (result : α) : Bool × Sink → Except Error α × Sink
  | (false, sink) => (.error .sinkFull, sink)
  | (true, sink) => (.ok result, sink)

/-- Whatever a replay ends with, its sink is the one that was written to. -/
theorem ending_eq {α : Type} (result : α) (written : Bool × Sink) :
    ending result written =
      (if written.1 then .ok result else .error .sinkFull, written.2) := by
  rcases written with ⟨_ | _, sink⟩ <;> rfl

/-- **A passage of a stream without a filter**: the payloads are written as they are. -/
theorem forward_plain (k : Backend pool engine) (source : Packetizer) :
    ∀ (p : pool) (buffer : Buffer) (packets bytesOut : Nat) (sink : Sink),
      source.payloadBytes * 2 + 256 ≤ buffer.size →
      forward k source p buffer ⟨.plain, packets, bytesOut⟩ sink =
        ending ⟨.plain, packets + source.payloads.length, bytesOut + source.payloads.flatten.length⟩
          (sink.writeAll source.payloads) := by
  induction source using Packetizer.payloads.induct with
  | case1 source h =>
    intro p buffer packets bytesOut sink _
    rw [forward_of_nil k h, Packetizer.payloads_of_nil h]
    rfl
  | case2 source h ih =>
    intro p buffer packets bytesOut sink hsize
    have hfits : source.packet.length ≤ buffer.size := source.packet_fits hsize
    have hstep := forward_of_read (k := k) (p := p) ⟨.plain, packets, bytesOut⟩ sink h hfits rfl
      (source.incoming [] hfits).decoded
    have hwhat : (source.incoming [] hfits).packet.payload = source.payload := rfl
    rw [hwhat] at hstep
    rw [hstep, Packetizer.payloads_of_ne_nil h, Sink.writeAll]
    rcases sink.write source.payload with ⟨_ | _, sink'⟩
    · rfl
    · have hsize' : source.advance.payloadBytes * 2 + 256 ≤ (buffer.overwrite source.packet).size := by
        rw [Buffer.size_overwrite _ _ hfits]
        exact hsize
      refine (ih p _ _ _ sink' hsize').trans ?_
      rw [List.length_cons, List.flatten_cons, List.length_append, Nat.add_right_comm packets,
        ← Nat.add_assoc bytesOut]
      rfl

/-- **Room for what waits**: less than a frame waits, and nothing where payloads are less than a frame. -/
structure Roomy (source : Packetizer) (buffer : Buffer) (waiting : Bytes) : Prop where
  size : source.payloadBytes * 2 + 256 ≤ buffer.size
  lt : waiting.length < frameBytes
  small : source.payloadBytes < frameBytes → waiting = []

/-- There is room for the next payload with what waits in front of it. -/
theorem Roomy.fits {source : Packetizer} {buffer : Buffer} {waiting : Bytes}
    (h : Roomy source buffer waiting) :
    20 + (waiting ++ source.payload).length ≤ buffer.size := by
  have hsize := h.size
  have hlt := h.lt
  have hpayload : source.payload.length ≤ source.payloadBytes := List.length_take_le _ _
  rw [List.length_append]
  rcases Nat.lt_or_ge source.payloadBytes frameBytes with hsmall | hlarge
  · rw [h.small hsmall, List.length_nil]
    omega
  · omega

/-- Handling a payload leaves room for the next. -/
theorem Roomy.handled {source : Packetizer} {buffer buffer' : Buffer} {f : Filter engine}
    (h : Roomy source buffer f.accumulator.waiting) (k : Backend pool engine) (e : engine)
    (hsize : buffer'.size = buffer.size) :
    Roomy source.advance buffer' (f.handled k e source.payload).accumulator.waiting := by
  refine ⟨?_, Filter.waiting_handle_lt k e h.lt, fun hsmall => ?_⟩
  · rw [hsize]
    exact h.size
  · have hpayload : source.payload.length ≤ source.payloadBytes := List.length_take_le _ _
    exact Filter.waiting_handle_of_lt k e (Nat.lt_of_le_of_lt hpayload hsmall) (h.small hsmall)

/-- **One packet through a filter**, into a buffer with room for what waited and its payload: what the
filter sends on for the payload is written, and the packets after it follow. -/
theorem forward_handled (k : Backend pool engine) {source : Packetizer} {p : pool} {f : Filter engine}
    {e : engine} {buffer : Buffer} (packets bytesOut : Nat) (sink : Sink) (h : source.remaining ≠ [])
    (hstage : (f.started k p).stage = .active e)
    (hroom : 20 + (f.accumulator.waiting ++ source.payload).length ≤ buffer.size) :
    ∃ (q : pool) (buffer' : Buffer), buffer'.size = buffer.size ∧
      forward k source p buffer ⟨.filtered f, packets, bytesOut⟩ sink =
        match sink.write (f.handle k e source.payload).payload with
        | (false, sink) => (.error .sinkFull, sink)
        | (true, sink) => forward k source.advance q buffer'
            ⟨.filtered (f.handled k e source.payload), packets + 1,
              bytesOut + (f.handle k e source.payload).payload.length⟩ sink := by
  have hfits : source.packet.length ≤ buffer.size := by
    rw [List.length_append] at hroom
    rw [source.length_packet]
    omega
  obtain ⟨i, hi⟩ : ∃ i, source.incoming [] hfits = i := ⟨_, rfl⟩
  have hpayload : i.packet.payload = source.payload := by rw [← hi]; rfl
  have hheader : i.packet.header = source.readHeader := by rw [← hi]; rfl
  have hsize : i.buffer.size = buffer.size := by
    rw [← hi]
    exact Buffer.size_overwrite _ _ hfits
  -- the header takes twenty bytes without padding, and so the processed packet has room
  have hexit := f.exit_read k p (.ok i.delivery) i.buffer
  have hnone := hexit.fallbacks_of_not_unfit i.decoded fun e' hunfit => by
    have hlarge := unfit_iff.1 hunfit (by rw [hheader]; exact source.length_spell_readHeader)
    have hlength := (f.started k p).length_suppress k e' i.packet.payload
    rw [Packet.size_of_unpadded _ (by rw [hheader]; rfl)] at hlarge
    simp only [hheader, source.size_readHeader, hsize] at hlarge
    rw [Filter.started_accumulator, hpayload] at hlength
    rw [hpayload] at hlarge
    omega
  obtain ⟨⟨d, what, houtcome, hwhat, hsent⟩, hsize', -, hfilter⟩ :=
    hexit.handles hstage i.wellFormed i.decoded hnone
  have hread : (Stream.filtered f).read k p (.ok ⟨source.packet.length, []⟩)
      (buffer.overwrite source.packet) =
        (⟨.delivered d, (f.read k p (.ok i.delivery) i.buffer).1.buffer,
            (f.read k p (.ok i.delivery) i.buffer).1.notices,
            (f.read k p (.ok i.delivery) i.buffer).1.analyses⟩,
          .filtered (f.handled k e source.payload), (f.read k p (.ok i.delivery) i.buffer).2.2) := by
    rw [← houtcome, ← hpayload, ← hfilter, ← hi]
    rfl
  rw [hpayload] at hsent
  have hstep := forward_of_read ⟨.filtered f, packets, bytesOut⟩ sink h hfits hread hwhat
  rw [hsent] at hstep
  exact ⟨_, _, hsize'.trans hsize, hstep⟩

/-- **A passage of a stream behind a filter** is a flow: what the filter sends on is written. -/
theorem forward_filtered (k : Backend pool engine) (source : Packetizer) :
    ∀ (p : pool) {f : Filter engine} {e : engine} (buffer : Buffer) (packets bytesOut : Nat)
      (sink : Sink), (f.started k p).stage = .active e →
      Roomy source buffer f.accumulator.waiting →
      forward k source p buffer ⟨.filtered f, packets, bytesOut⟩ sink =
        ending ⟨.filtered (f.flow k e source.payloads).filter, packets + source.payloads.length,
            bytesOut + (f.flow k e source.payloads).sent.flatten.length⟩
          (sink.writeAll (f.flow k e source.payloads).sent) := by
  induction source using Packetizer.payloads.induct with
  | case1 source h =>
    intro p f e buffer packets bytesOut sink _ _
    rw [forward_of_nil k h, Packetizer.payloads_of_nil h]
    rfl
  | case2 source h ih =>
    intro p f e buffer packets bytesOut sink hstage hroomy
    obtain ⟨q, buffer', hsize, hstep⟩ := forward_handled k packets bytesOut sink h hstage hroomy.fits
    rw [hstep, Packetizer.payloads_of_ne_nil h, Filter.flow, Sink.writeAll]
    rcases sink.write (f.handle k e source.payload).payload with ⟨_ | _, sink'⟩
    · rfl
    · refine (ih _ _ _ _ sink' (f.stage_started_handled k _ e source.payload)
        (hroomy.handled k e hsize)).trans ?_
      rw [List.length_cons, List.flatten_cons, List.length_append, Nat.add_right_comm packets,
        ← Nat.add_assoc bytesOut]
      rfl

/-! ### A whole replay -/

/-- **The pieces of a replay**, in the order in which they are written: the payloads that are sent on,
and what waits at the end. -/
def pieces (k : Backend pool engine) (e : engine) (pcm : Bytes) (c : Configuration) : List Bytes :=
  let source := Packetizer.new pcm c.payloadBytes c.payloadType c.ssrc
  if c.filter.enabled then
    let flow := (Filter.new c.ssrc c.filter).flow k e source.payloads
    flow.sent ++ [flow.filter.accumulator.waiting]
  else source.payloads

/-- **What a replay reports**, if its sink takes all pieces. -/
def summary (k : Backend pool engine) (e : engine) (pcm : Bytes) (c : Configuration) : Summary :=
  let source := Packetizer.new pcm c.payloadBytes c.payloadType c.ssrc
  { packets := source.payloads.length
    bytesIn := pcm.length
    bytesOut := (pieces k e pcm c).flatten.length
    filtered := c.filter.enabled
    counters := if c.filter.enabled then
        ((Filter.new c.ssrc c.filter).flow k e source.payloads).filter.counters
      else .zero }

/-- The stream of a replay is behind a filter if suppression is enabled. -/
theorem bind_info (c : Configuration) : (Stream.bind (info c) c.filter : Stream engine) =
    if c.filter.enabled then .filtered (.new c.ssrc c.filter) else .plain := by
  cases henabled : c.filter.enabled with
  | false => simp only [Stream.bind, StreamInfo.route, henabled, Bool.not_false, if_true]; rfl
  | true =>
    have hid : (info c).extensionId? audioLevelUri = some 1 := by
      simp [info, StreamInfo.extensionId?, Packetizer.audioLevelId]
    have hroute : (info c).route c.filter = .suppress := by
      rw [StreamInfo.route, henabled, hid]
      rfl
    rw [Stream.bind, hroute]
    rfl

/-- What a passage writes of its packets, it writes in the replay, and what waits comes at the end. -/
theorem run_of_forward (k : Backend pool engine) (p : pool) (e : engine) (pcm : Bytes)
    (c : Configuration) (sink : Sink) {source : Packetizer}
    (hsource : Packetizer.new pcm c.payloadBytes c.payloadType c.ssrc = source)
    (hmemory : c.bufferBytes ≤ Configuration.memoryLimit)
    (hplain : c.filter.enabled = false →
      forward k source p (.blank c.bufferBytes) ⟨.plain, 0, 0⟩ sink =
        ending ⟨.plain, 0 + source.payloads.length, 0 + source.payloads.flatten.length⟩
          (sink.writeAll source.payloads))
    (hfiltered : c.filter.enabled = true →
      forward k source p (.blank c.bufferBytes) ⟨.filtered (.new c.ssrc c.filter), 0, 0⟩ sink =
        ending ⟨.filtered ((Filter.new c.ssrc c.filter).flow k e source.payloads).filter,
            0 + source.payloads.length,
            0 + ((Filter.new c.ssrc c.filter).flow k e source.payloads).sent.flatten.length⟩
          (sink.writeAll ((Filter.new c.ssrc c.filter).flow k e source.payloads).sent)) :
    run k p pcm c sink = ending (summary k e pcm c) (sink.writeAll (pieces k e pcm c)) := by
  rw [run, if_neg (Nat.not_lt.2 hmemory)]
  dsimp only
  rw [bind_info, summary, pieces, hsource]
  cases henabled : c.filter.enabled with
  | false =>
    simp only [Bool.false_eq_true, if_false]
    rw [hplain henabled]
    rcases sink.writeAll source.payloads with ⟨_ | _, sink'⟩
    · rfl
    · rw [Nat.zero_add, Nat.zero_add]
      rfl
  | true =>
    simp only [if_true]
    rw [hfiltered henabled, Sink.writeAll_append]
    obtain ⟨flow, hflow⟩ : ∃ flow, (Filter.new c.ssrc c.filter).flow k e source.payloads = flow :=
      ⟨_, rfl⟩
    rw [hflow]
    rcases sink.writeAll flow.sent with ⟨_ | _, sink'⟩
    · rfl
    · simp only [ending, Sink.writeAll_singleton, Filter.drain, Accumulator.take, Nat.zero_add]
      rcases sink'.write flow.filter.accumulator.waiting with ⟨_ | _, sink''⟩
      · rfl
      · rw [List.flatten_append, List.length_append, List.flatten_singleton]

/-- A packetizer has all of its audio before it, in packets of the configured size. -/
theorem payloadBytes_new (pcm : Bytes) (c : Configuration) :
    (Packetizer.new pcm c.payloadBytes c.payloadType c.ssrc).payloadBytes = c.payloadBytes :=
  Nat.max_eq_left (Nat.le_max_right _ _)

/-- **A replay writes its pieces**, if the read buffer is one that can be had and so is an engine. -/
theorem run_eq (k : Backend pool engine) (p : pool) {e : engine} (hcreate : (k.create p).1 = .ok e)
    (pcm : Bytes) (c : Configuration) (sink : Sink)
    (hsize : c.payloadBytes * 2 + 256 ≤ Configuration.memoryLimit) :
    run k p pcm c sink = ending (summary k e pcm c) (sink.writeAll (pieces k e pcm c)) := by
  have hbuffer : c.bufferBytes = c.payloadBytes * 2 + 256 := by
    refine Nat.mod_eq_of_lt (Nat.lt_of_le_of_lt hsize ?_)
    decide
  have hblank : (Packetizer.new pcm c.payloadBytes c.payloadType c.ssrc).payloadBytes * 2 + 256 ≤
      (Buffer.blank c.bufferBytes).size := by
    refine Nat.le_of_eq ?_
    rw [Buffer.size_blank, hbuffer, payloadBytes_new]
  have hstage := Filter.stage_started_new k p c.ssrc c.filter
  rw [hcreate] at hstage
  refine run_of_forward k p e pcm c sink rfl (hbuffer ▸ hsize) (fun _ => ?_) fun _ => ?_
  · exact forward_plain k _ p _ _ _ _ hblank
  · exact forward_filtered k _ p _ _ _ _ hstage
      ⟨hblank, show [].length < frameBytes by decide, fun _ => rfl⟩

end Replay

end NoiseFilter
