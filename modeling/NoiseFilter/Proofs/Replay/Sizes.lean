import NoiseFilter.Command.Run
import NoiseFilter.Proofs.Replay.Sequence
import NoiseFilter.Proofs.Replay.Totals

/-!
# The sizes of a replay

The bytes per packet are configured freely, and two sizes are computed from them in words of 64 bits.
The end of a packet in the audio is one that never leaves its word: the first packet starts at zero, and
behind the first the audio itself is larger than a packet. The size of the read buffer is the other, and
does leave it: from `Configuration.packetLimit` bytes per packet on, twice a payload and 256 bytes more
are computed as something small.

`Replay.Sizing` says what follows. Below the limit every packet has room in the buffer, if memory can hold
a buffer of that size at all. From the limit on it depends on the remainder. If that has room for the
first packet, then the audio is no longer than a packet and the replay goes well; otherwise the packetizer
fails at once, with a message that blames the packet (`Replay.Refused`).
-/

namespace NoiseFilter

namespace Configuration

/-- The bytes per packet from which the size of the read buffer is more than a word can hold. -/
def packetLimit : Nat := 0x7fffffffffffff80

/-- A payload has a size that a word can hold. -/
theorem payloadBytes_lt (c : Configuration) : c.payloadBytes < wordLimit := by
  have hword := c.packetBytes.toNat_lt
  have hsample : sampleBytes = 2 := rfl
  rw [payloadBytes, hsample, wordLimit]
  omega

/-- **Twice a payload and 256 bytes more** are a size that a word can hold below the limit only. -/
theorem bufferBytes_whole_iff (c : Configuration) :
    c.payloadBytes * 2 + 256 < wordLimit ↔ c.packetBytes.toNat < packetLimit := by
  have hsample : sampleBytes = 2 := rfl
  rw [payloadBytes, hsample, wordLimit, packetLimit]
  omega

end Configuration

namespace Replay

open NoiseFilter.Configuration (wordLimit memoryLimit packetLimit)

variable {pool engine : Type}

/-- **The packetizer of a replay**, after so many packets. -/
def packetizer (pcm : Bytes) (c : Configuration) (count : Nat) : Packetizer :=
  (Packetizer.new pcm c.payloadBytes c.payloadType c.ssrc).after count

/-- **The first packet is refused**: there is audio, and no room for as much of it as a packet takes. -/
def Refused (pcm : Bytes) (c : Configuration) : Prop :=
  pcm ≠ [] ∧ c.bufferBytes < 20 + min c.payloadBytes pcm.length

instance (pcm : Bytes) (c : Configuration) : Decidable (Refused pcm c) :=
  inferInstanceAs (Decidable (_ ∧ _))

/-! ### Packets and the buffer -/

section Packets

variable (pcm : Bytes) (c : Configuration)

/-- The packetizer after so many packets has the audio behind them. -/
theorem packetizer_fields (count : Nat) :
    (packetizer pcm c count).remaining = pcm.drop (count * c.payloadBytes) ∧
      (packetizer pcm c count).payloadBytes = c.payloadBytes := by
  obtain ⟨hremaining, hbytes, -, -⟩ :=
    (Packetizer.new pcm c.payloadBytes c.payloadType c.ssrc).after_fields count
  rw [payloadBytes_new] at hremaining hbytes
  exact ⟨hremaining, hbytes⟩

/-- The first packet is a header and the audio up to the size of a payload. -/
theorem length_packet_zero :
    (packetizer pcm c 0).packet.length = 20 + min c.payloadBytes pcm.length := by
  obtain ⟨hremaining, hbytes⟩ := packetizer_fields pcm c 0
  rw [Packetizer.length_packet, Packetizer.payload, hremaining, hbytes, List.length_take,
    Nat.zero_mul, List.drop_zero]

/-- **No packet is larger than the first.** -/
theorem length_packet_le (count : Nat) :
    (packetizer pcm c count).packet.length ≤ 20 + min c.payloadBytes pcm.length := by
  obtain ⟨hremaining, hbytes⟩ := packetizer_fields pcm c count
  rw [Packetizer.length_packet, Packetizer.payload, hremaining, hbytes, List.length_take,
    List.length_drop]
  omega

/-- **There is room for every packet** unless the first is refused. -/
theorem room_iff : (∀ count, (packetizer pcm c count).remaining ≠ [] →
    (packetizer pcm c count).packet.length ≤ c.bufferBytes) ↔ ¬ Refused pcm c := by
  rw [Refused, not_and, Nat.not_lt]
  constructor
  · intro hroom hsome
    rw [← length_packet_zero]
    exact hroom 0 hsome
  · intro hfirst count hsome
    refine Nat.le_trans (length_packet_le pcm c count) (hfirst ?_)
    rintro rfl
    rw [(packetizer_fields [] c count).1, List.drop_nil] at hsome
    exact hsome rfl

/-- **Below the limit no packet is refused.** -/
theorem not_refused_of_lt (hlimit : c.packetBytes.toNat < packetLimit) : ¬ Refused pcm c := by
  have hbuffer : c.bufferBytes = c.payloadBytes * 2 + 256 :=
    Nat.mod_eq_of_lt (c.bufferBytes_whole_iff.2 hlimit)
  rintro ⟨-, hsmall⟩
  rw [hbuffer] at hsmall
  omega

variable {pcm}

/-- **The end of a packet is never more than a word can hold.** -/
theorem position_lt (hpcm : pcm.length ≤ memoryLimit) {count : Nat}
    (hsome : (packetizer pcm c count).remaining ≠ []) :
    pcm.length - (packetizer pcm c count).remaining.length + c.payloadBytes < wordLimit := by
  have hpayload := c.payloadBytes_lt
  rw [(packetizer_fields pcm c count).1] at hsome ⊢
  have hstart : count * c.payloadBytes < pcm.length := by
    rw [ne_eq, List.drop_eq_nil_iff] at hsome
    omega
  rw [List.length_drop]
  rcases Nat.eq_zero_or_pos count with rfl | hcount
  · omega
  · -- a whole payload lies before the packet, and so a payload is less than the audio
    have hone : c.payloadBytes ≤ count * c.payloadBytes := Nat.le_mul_of_pos_left _ hcount
    rw [memoryLimit] at hpcm
    rw [wordLimit]
    omega

/-- **A remainder that has room for the first packet** has room for all of the audio. -/
theorem length_le_of_wrapped (hpcm : pcm.length ≤ memoryLimit)
    (hwrapped : wordLimit ≤ c.payloadBytes * 2 + 256) (hroom : ¬ Refused pcm c) :
    pcm.length ≤ c.payloadBytes := by
  have hremainder : c.bufferBytes = (c.payloadBytes * 2 + 256) % wordLimit := rfl
  rw [Refused, not_and, Nat.not_lt] at hroom
  rcases Nat.lt_or_ge c.payloadBytes pcm.length with hlong | hshort
  · have hfirst := hroom (List.ne_nil_of_length_pos (by omega))
    rw [memoryLimit] at hpcm
    rw [wordLimit] at hwrapped hremainder
    omega
  · exact hshort

end Packets

/-! ### What becomes of the replay -/

/-- A passage ends at a packet for which there is no room. -/
theorem forward_of_small (k : Backend pool engine) {source : Packetizer} {buffer : Buffer}
    (hsome : source.remaining ≠ []) (hsmall : buffer.size < source.packet.length) (p : pool)
    (so : Passage engine) (sink : Sink) :
    forward k source p buffer so sink =
      (.error (.source (.other (Packetizer.doesNotFit source.packet.length buffer.size))), sink) := by
  rcases source.read_cases [] buffer with ⟨hnil, -⟩ | ⟨-, -, hread⟩ | ⟨-, hfits, -⟩
  · exact absurd hnil hsome
  · rw [forward]
    split <;> rename_i hsource <;> rw [hread] at hsource <;> cases hsource
    rfl
  · exact absurd hsmall (Nat.not_lt.2 hfits)

/-- **A refused packet ends the replay** before anything is written. -/
theorem run_of_refused (k : Backend pool engine) (p : pool) {pcm : Bytes} {c : Configuration}
    (sink : Sink) (hmemory : c.bufferBytes ≤ memoryLimit) (hrefused : Refused pcm c) :
    run k p pcm c sink = (.error (.source (.other (Packetizer.doesNotFit
      (20 + min c.payloadBytes pcm.length) c.bufferBytes))), sink) := by
  obtain ⟨source, hsource⟩ : ∃ source,
      Packetizer.new pcm c.payloadBytes c.payloadType c.ssrc = source := ⟨_, rfl⟩
  have hblank : (Buffer.blank c.bufferBytes).size = c.bufferBytes := Buffer.size_blank _
  have hlength : source.packet.length = 20 + min c.payloadBytes pcm.length :=
    hsource ▸ length_packet_zero pcm c
  have hsome : source.remaining ≠ [] := hsource ▸ hrefused.1
  have hsmall : (Buffer.blank c.bufferBytes).size < source.packet.length := by
    rw [hblank, hlength]
    exact hrefused.2
  rw [run, if_neg (Nat.not_lt.2 hmemory)]
  dsimp only
  rw [hsource, forward_of_small k hsome hsmall, hlength, hblank]

/-- **A replay of a single packet**, for which there is room, writes its pieces. -/
theorem run_eq_of_single (k : Backend pool engine) (p : pool) {e : engine}
    (hcreate : (k.create p).1 = .ok e) {pcm : Bytes} {c : Configuration} (sink : Sink)
    (hmemory : c.bufferBytes ≤ memoryLimit) (hsingle : pcm.length ≤ c.payloadBytes)
    (hroom : ¬ Refused pcm c) :
    run k p pcm c sink = ending (summary k e pcm c) (sink.writeAll (pieces k e pcm c)) := by
  obtain ⟨source, hsource⟩ : ∃ source,
      Packetizer.new pcm c.payloadBytes c.payloadType c.ssrc = source := ⟨_, rfl⟩
  have hstage := Filter.stage_started_new k p c.ssrc c.filter
  rw [hcreate] at hstage
  have hblank : (Buffer.blank c.bufferBytes).size = c.bufferBytes := Buffer.size_blank _
  by_cases hnil : source.remaining = []
  · refine run_of_forward k p e pcm c sink hsource hmemory (fun _ => ?_) fun _ => ?_
    · rw [forward_of_nil k hnil, Packetizer.payloads_of_nil hnil]
      rfl
    · rw [forward_of_nil k hnil, Packetizer.payloads_of_nil hnil]
      rfl
  · have hadvance : source.advance.remaining = [] := by
      rw [← hsource]
      refine List.drop_eq_nil_iff.2 ?_
      rw [payloadBytes_new]
      exact hsingle
    have hpayloads : source.payloads = [source.payload] := by
      rw [Packetizer.payloads_of_ne_nil hnil, Packetizer.payloads_of_nil hadvance]
    have hfits : source.packet.length ≤ (Buffer.blank c.bufferBytes).size := by
      rw [← hsource] at hnil ⊢
      rw [hblank]
      exact (room_iff pcm c).2 hroom 0 hnil
    refine run_of_forward k p e pcm c sink hsource hmemory (fun _ => ?_) fun _ => ?_
    · have hstep := forward_of_read (k := k) (p := p) ⟨.plain, 0, 0⟩ sink hnil hfits rfl
        (source.incoming [] hfits).decoded
      have hwhat : (source.incoming [] hfits).packet.payload = source.payload := rfl
      rw [hwhat] at hstep
      rw [hstep, hpayloads, Sink.writeAll_singleton, List.flatten_singleton]
      rcases sink.write source.payload with ⟨_ | _, sink'⟩
      · rfl
      · exact forward_of_nil k hadvance _ _ _ _
    · rw [source.length_packet] at hfits
      obtain ⟨q, buffer', -, hstep⟩ := forward_handled k 0 0 sink hnil hstage hfits
      rw [hstep, hpayloads, Filter.flow, Filter.flow, Sink.writeAll_singleton, List.flatten_singleton]
      rcases sink.write _ with ⟨_ | _, sink'⟩
      · rfl
      · exact forward_of_nil k hadvance _ _ _ _

/-! ### All sizes -/

/-- **The sizes of a replay**, and what becomes of it with them. -/
structure Sizing (k : Backend pool engine) (p : pool) (e : engine) (pcm : Bytes) (c : Configuration)
    (sink : Sink) : Prop where
  /-- the size of the buffer is one that a word can hold below the limit, and only there -/
  buffer : c.payloadBytes * 2 + 256 < wordLimit ↔ c.packetBytes.toNat < packetLimit
  /-- the end of a packet is one anyway -/
  position : ∀ count, (packetizer pcm c count).remaining ≠ [] →
    pcm.length - (packetizer pcm c count).remaining.length + c.payloadBytes < wordLimit
  /-- the buffer has room for every packet unless the first is refused -/
  room : (∀ count, (packetizer pcm c count).remaining ≠ [] →
    (packetizer pcm c count).packet.length ≤ c.bufferBytes) ↔ ¬ Refused pcm c
  /-- below the limit none is -/
  enough : c.packetBytes.toNat < packetLimit → ¬ Refused pcm c
  /-- memory does not hold every buffer whose size a word can hold -/
  aborted : memoryLimit < c.bufferBytes → run k p pcm c sink = (.error .aborted, sink)
  /-- a packet that is refused ends the replay -/
  refused : c.bufferBytes ≤ memoryLimit → Refused pcm c → run k p pcm c sink =
    (.error (.source (.other (Packetizer.doesNotFit (20 + min c.payloadBytes pcm.length)
      c.bufferBytes))), sink)
  /-- in all other cases the replay takes its course -/
  replayed : c.bufferBytes ≤ memoryLimit → ¬ Refused pcm c →
    run k p pcm c sink = ending (summary k e pcm c) (sink.writeAll (pieces k e pcm c))
  /-- so that a packet is blamed for its size only if the first is refused -/
  blamed : (∃ size capacity, (run k p pcm c sink).1 =
      .error (.source (.other (Packetizer.doesNotFit size capacity)))) ↔
    c.bufferBytes ≤ memoryLimit ∧ Refused pcm c

/-- **A replay has the room that it was meant to have below the limit**, and from the limit on as far as
the remainder goes. This is so for every recording that memory can hold, every configuration, and every
sink; an engine is to be had. -/
theorem run_sized (k : Backend pool engine) (p : pool) {e : engine} (hcreate : (k.create p).1 = .ok e)
    {pcm : Bytes} (hpcm : pcm.length ≤ memoryLimit) (c : Configuration) (sink : Sink) :
    Sizing k p e pcm c sink := by
  have haborted : memoryLimit < c.bufferBytes → run k p pcm c sink = (.error .aborted, sink) :=
    fun hmemory => by rw [run, if_pos hmemory]
  have hrefused : c.bufferBytes ≤ memoryLimit → Refused pcm c → run k p pcm c sink =
      (.error (.source (.other (Packetizer.doesNotFit (20 + min c.payloadBytes pcm.length)
        c.bufferBytes))), sink) := run_of_refused k p sink
  have hreplayed : c.bufferBytes ≤ memoryLimit → ¬ Refused pcm c →
      run k p pcm c sink = ending (summary k e pcm c) (sink.writeAll (pieces k e pcm c)) := by
    intro hmemory hroom
    rcases Nat.lt_or_ge (c.payloadBytes * 2 + 256) wordLimit with hwhole | hwrapped
    · -- the size is what it should be
      have hbuffer : c.bufferBytes = c.payloadBytes * 2 + 256 := Nat.mod_eq_of_lt hwhole
      exact run_eq k p hcreate pcm c sink (hbuffer ▸ hmemory)
    · exact run_eq_of_single k p hcreate sink hmemory (length_le_of_wrapped c hpcm hwrapped hroom)
        hroom
  refine ⟨c.bufferBytes_whole_iff, fun count => position_lt c hpcm, room_iff pcm c,
    not_refused_of_lt pcm c, haborted, hrefused, hreplayed, ?_⟩
  constructor
  · rintro ⟨size, capacity, hblamed⟩
    rcases Nat.lt_or_ge memoryLimit c.bufferBytes with hmemory | hmemory
    · rw [haborted hmemory] at hblamed
      cases hblamed
    · refine ⟨hmemory, Classical.byContradiction fun hroom => ?_⟩
      rw [hreplayed hmemory hroom, ending_eq] at hblamed
      cases htaken : (sink.writeAll (pieces k e pcm c)).1 <;> rw [htaken] at hblamed <;> cases hblamed
  · rintro ⟨hmemory, hroom⟩
    exact ⟨_, _, by rw [hrefused hmemory hroom]⟩

/-- Packets of a thousand bytes more than half of what a word can hold: what remains of the size of the
buffer has room for a short recording, and its replay goes well. -/
theorem run_sized_of_remainder :
    ∃ s, (run Network.inert.backend () (Bytes.zeros 300) ⟨Filter.carrying, 0x80000000000003e8, 111, 7⟩
      .unlimited).1 = .ok s := by
  have hlength := Bytes.length_zeros 300
  have hsizing := run_sized Network.inert.backend () rfl (by rw [hlength]; decide)
    ⟨Filter.carrying, 0x80000000000003e8, 111, 7⟩ .unlimited
  have hroom : ¬ Refused (Bytes.zeros 300) ⟨Filter.carrying, 0x80000000000003e8, 111, 7⟩ := by
    rintro ⟨-, hsmall⟩
    rw [hlength] at hsmall
    exact absurd hsmall (by decide)
  rw [hsizing.replayed (by decide) hroom, ending_eq, (Sink.writeAll_unlimited _ .unlimited rfl).1]
  exact ⟨_, rfl⟩

/-- The default configuration, with packets of half of what a word can hold. -/
def halfWord : Configuration := { Configuration.default with packetBytes := 0x8000000000000000 }

/-- **A buffer of 256 bytes for packets of half of what a word can hold.** The command line asks for such
packets, the configuration with them passes its check, and the size of the buffer is more than a word can
hold; the replay of a short recording fails with a packet to blame. -/
theorem not_sized_of_halfWord :
    ∃ w, (Command.read ["process", "-i", "in", "-o", "out", "--packet-bytes",
        "9223372036854775808"]).toOption = some (.process w) ∧
      w.override .default = halfWord ∧ halfWord.filter.check = .ok () ∧
      ¬ halfWord.payloadBytes * 2 + 256 < wordLimit ∧ halfWord.bufferBytes = 256 ∧
      run Network.inert.backend () (Bytes.zeros 300) halfWord .unlimited =
        (.error (.source (.other (Packetizer.doesNotFit 320 256))), .unlimited) := by
  have hpayload : halfWord.payloadBytes = 0x8000000000000000 := by decide
  have hbuffer : halfWord.bufferBytes = 256 := by decide
  have hfirst : 20 + min halfWord.payloadBytes (Bytes.zeros 300).length = 320 := by
    rw [hpayload, Bytes.length_zeros]
    decide
  refine ⟨⟨"in", "out", none, false, none, some 0x8000000000000000⟩, by decide +kernel, rfl, rfl,
    by rw [hpayload]; decide, hbuffer, ?_⟩
  have hrefused : Refused (Bytes.zeros 300) halfWord := by
    refine ⟨List.ne_nil_of_length_pos (by rw [Bytes.length_zeros]; decide), ?_⟩
    rw [hfirst, hbuffer]
    decide
  rw [run_of_refused _ _ _ (by rw [hbuffer]; decide) hrefused, hfirst, hbuffer]

end Replay

end NoiseFilter
