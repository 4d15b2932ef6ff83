import NoiseFilter.Proofs.Stream.Flow
import NoiseFilter.Proofs.Stream.Treatment

/-!
# Packets on their own

Where no incomplete frame waits, nothing goes from one packet into the next but the engine. Then

* nothing waits, ever;
* a processed payload is as long as the one that arrived, and its bytes behind the last frame are those
  that arrived;
* with an engine **without memory** a read is a function of the packet that arrives and of the size of
  the buffer, `Filter.reply`, and a run is that function applied to each of its packets.

So whatever becomes of the other packets on their way, lost, doubled or out of order, every packet goes
on as it would have alone. `Filter.run_aligned` has all three.
-/

namespace NoiseFilter

open Rtp

variable {pool engine : Type}

/-! ### Engines without memory -/

/-- **An engine without memory**: whatever frames it has had, it answers the next one as it would have
answered it first. -/
def Backend.Memoryless (k : Backend pool engine) (threshold : Binary.Single) (e : engine) : Prop :=
  ∀ (past : List WireFrame) (frame : WireFrame),
    (k.process (k.analyse threshold e past).2 frame.decode threshold).1 =
      (k.process e frame.decode threshold).1

namespace Backend.Memoryless

variable {k : Backend pool engine} {threshold : Binary.Single} {e : engine}

/-- Frames are answered as if they were the first. -/
theorem analyse_eq (h : k.Memoryless threshold e) (frames : List WireFrame) :
    ∀ past, (k.analyse threshold (k.analyse threshold e past).2 frames).1 =
      (k.analyse threshold e frames).1 := by
  induction frames with
  | nil => exact fun past => rfl
  | cons frame frames ih =>
    intro past
    -- the frames after this one have it behind them, and what came before
    have hlater := ih (past ++ [frame])
    have hfirst := ih [frame]
    rw [k.analyse_append] at hlater
    rw [k.analyse_cons, k.analyse_cons, h past frame]
    exact congrArg (_ :: ·) (hlater.trans hfirst.symm)

/-- **Every payload is cleaned as if it were the first.** -/
theorem clean_eq (h : k.Memoryless threshold e) (past : List WireFrame) (stream : Bytes) :
    k.clean threshold (k.analyse threshold e past).2 stream = k.clean threshold e stream := by
  rw [clean, clean, h.analyse_eq]

end Backend.Memoryless

/-- A scripted engine that does the same with every frame has no memory. -/
theorem Script.memoryless (creations : List (Option Failure)) (act : Act)
    (threshold : Binary.Single) (e : Nat) :
    (Script.backend ⟨creations, [act]⟩).Memoryless threshold e := by
  have hact : ∀ number, Script.act ⟨creations, [act]⟩ number = act := by
    intro number
    rw [Script.act, List.length_singleton, Nat.mod_one]
    rfl
  intro past frame
  change ((Script.act _ _).answer _ _) = ((Script.act _ _).answer _ _)
  rw [hact, hact]

namespace Filter

/-! ### The reply to a packet -/

/-- **The reply to a packet**: its length and its bytes, if `length` bytes arrived that are `bytes`, in a
buffer of `size` bytes. `clean` is what becomes of a payload. -/
def reply (clean : Bytes → Bytes) (size length : Nat) (bytes : Bytes) : Option (Nat × Bytes) :=
  if size < length then some (length, bytes)
  else match Packet.decode bytes with
    | .error .overrun => none
    | .error (.malformed _) => some (length, bytes)
    | .ok packet =>
      if packet.payload.length < frameBytes then some (length, bytes)
      else match Packet.encode { packet with payload := clean packet.payload } with
        | .ok data => if data.length ≤ size then some (data.length, data) else some (length, bytes)
        | .error _ => some (length, bytes)

/-- The reply to what a transport has to say; without a packet there is none. -/
def Action.reply (clean : Bytes → Bytes) : Action → Option (Nat × Bytes)
  | .read (.ok d) buffer => Filter.reply clean buffer.size d.length (buffer.toBytes.take d.length)
  | _ => none

/-- **What a turn returned**: a length, and the bytes that it stands for. -/
def Turn.returned : Turn engine → Option (Nat × Bytes)
  | read _ _ _ reading =>
    match reading.outcome with
    | .delivered d => some (d.length, reading.buffer.toBytes.take d.length)
    | _ => none
  | drain .. => none

section Reply

variable {clean : Bytes → Bytes} {size length : Nat} {bytes : Bytes} {packet : Packet}

theorem reply_of_overrun (hsize : length ≤ size) (h : Packet.decode bytes = .error .overrun) :
    reply clean size length bytes = none := by
  rw [reply, if_neg (Nat.not_lt.2 hsize), h]

theorem reply_of_unread
    (h : length ≤ size → ∃ what, Packet.decode bytes = .error (.malformed what)) :
    reply clean size length bytes = some (length, bytes) := by
  rw [reply]
  rcases Nat.lt_or_ge size length with hlarge | hsize
  · rw [if_pos hlarge]
  · obtain ⟨what, hwhat⟩ := h hsize
    rw [if_neg (Nat.not_lt.2 hsize), hwhat]

theorem reply_of_short (hsize : length ≤ size) (h : Packet.decode bytes = .ok packet)
    (hshort : packet.payload.length < frameBytes) :
    reply clean size length bytes = some (length, bytes) := by
  rw [reply, if_neg (Nat.not_lt.2 hsize), h]
  exact if_pos hshort

theorem reply_of_written {data : Bytes} (hsize : length ≤ size) (h : Packet.decode bytes = .ok packet)
    (hlong : frameBytes ≤ packet.payload.length)
    (hdata : Packet.encode { packet with payload := clean packet.payload } = .ok data)
    (hfits : data.length ≤ size) :
    reply clean size length bytes = some (data.length, data) := by
  rw [reply, if_neg (Nat.not_lt.2 hsize), h]
  simp only [if_neg (Nat.not_lt.2 hlong), hdata, if_pos hfits]

theorem reply_of_unfit {buffer : Buffer} (hsize : length ≤ buffer.size)
    (h : Packet.decode bytes = .ok packet) (hlong : frameBytes ≤ packet.payload.length)
    (hunfit : Unfit { packet with payload := clean packet.payload } buffer) :
    reply clean buffer.size length bytes = some (length, bytes) := by
  rw [reply, if_neg (Nat.not_lt.2 hsize), h]
  simp only [if_neg (Nat.not_lt.2 hlong)]
  cases hdata : Packet.encode { packet with payload := clean packet.payload } with
  | ok data => simp only [if_neg (Nat.not_le.2 (hunfit data hdata))]
  | error why => rfl

end Reply

/-! ### One read -/

/-- **A read is its reply**, where no incomplete frame waits. -/
theorem Exit.returned {k : Backend pool engine} {p : pool} {f g : Filter engine} {buffer : Buffer}
    {d : Delivery} {r : Reading} {e : engine} (h : f.Exit k p buffer (.ok d) r g) (hf : f.Coherent)
    (hcarry : f.settings.carryRemainder = false) (hstage : (f.started k p).stage = .active e) :
    (Turn.read f (.ok d) buffer r).returned =
      reply (k.clean f.settings.threshold e) buffer.size d.length (buffer.toBytes.take d.length) := by
  have hempty := hf.flushed hcarry
  -- what a packet for the engine is, and what the engine makes of it
  have htaken : ∀ {e' packet}, (f.started k p).Takes e' d buffer packet →
      d.length ≤ buffer.size ∧ Packet.decode (buffer.toBytes.take d.length) = .ok packet ∧
        frameBytes ≤ packet.payload.length ∧
        ((f.started k p).suppress k e' packet.payload).payload =
          k.clean f.settings.threshold e packet.payload := by
    intro e' packet htakes
    obtain ⟨hsize, hdecode⟩ := Buffer.packet?_eq_some.1 htakes.decoded
    obtain rfl := htakes.engine_unique hstage
    refine ⟨hsize, hdecode, ?_, ?_⟩
    · have hlong := htakes.long
      rw [isShort, started_settings, hcarry, Bool.not_false, Bool.true_or, Bool.and_true,
        decide_eq_false_iff_not] at hlong
      exact Nat.not_lt.1 hlong
    · rw [suppress_eq_clean _ _ _ _ (by rw [started_settings]; exact hcarry)
        (by rw [started_accumulator]; exact hempty), started_settings]
  cases h with
  | degraded _ notices hquiet hidle => exact absurd hstage (hidle e)
  | overrun _ e' notices hquiet hstage' hsize hfault => exact (reply_of_overrun hsize hfault).symm
  | unread _ e' notices hquiet hstage' hfault => exact (reply_of_unread hfault).symm
  | short _ e' packet notices hquiet hstage' hpacket hshort =>
    obtain ⟨hsize, hdecode⟩ := Buffer.packet?_eq_some.1 hpacket
    exact (reply_of_short hsize hdecode (length_lt_of_isShort hshort)).symm
  | suppressed _ e' packet data notices hquiet htakes hdata hfits =>
    obtain ⟨hsize, hdecode, hlong, hpayload⟩ := htaken htakes
    rw [hpayload] at hdata
    rw [reply_of_written hsize hdecode hlong hdata hfits]
    change some (data.length, (buffer.overwrite data).toBytes.take data.length) = _
    rw [Buffer.toBytes_overwrite, List.take_left]
  | gaveUp _ e' packet notices hquiet htakes hunfit hwaiting =>
    obtain ⟨hsize, hdecode, hlong, hpayload⟩ := htaken htakes
    rw [hpayload] at hunfit
    exact (reply_of_unfit hsize hdecode hlong hunfit).symm
  | released _ e' packet data notices hquiet htakes hunfit hwaiting => exact absurd hempty hwaiting
  | dropped _ e' packet notices hdrop htakes hunfit hwaiting => exact absurd hempty hwaiting

/-- **Only the exit `suppressed` counts a packet as suppressed.** -/
theorem Exit.written_of_counted {k : Backend pool engine} {p : pool} {f g : Filter engine}
    {buffer : Buffer} {arrival : Arrival} {r : Reading} (h : f.Exit k p buffer arrival r g)
    (hcounted : g.counters.packetsSuppressed ≠ f.counters.packetsSuppressed) :
    ∃ d e packet data, arrival = .ok d ∧ (f.started k p).Takes e d buffer packet ∧
      Packet.encode { packet with
        payload := ((f.started k p).suppress k e packet.payload).payload } = .ok data ∧
      data.length ≤ buffer.size ∧ r.outcome = .delivered { d with length := data.length } ∧
      r.buffer = buffer.overwrite data := by
  have hstarted := started_counters k p f
  cases h with
  | failed why => exact absurd rfl hcounted
  | overrun => exact absurd (by rw [hstarted]) hcounted
  | degraded | unread | short => exact absurd (by rw [passed, hstarted]; rfl) hcounted
  | suppressed d e packet data notices hquiet htakes hdata hfits =>
    exact ⟨d, e, packet, data, rfl, htakes, hdata, hfits, rfl, rfl⟩
  | gaveUp d e packet | released d e packet | dropped d e packet =>
    exact absurd (f.suppressed_analysed k p e packet.payload) hcounted

/-- **A processed packet is aligned with the one that arrived**: its payload is as long, and the bytes
behind the last frame are the same. It is written into the buffer, and can be read there if the header
can be. -/
def Aligned (buffer : Buffer) (d : Delivery) (r : Reading) : Prop :=
  ∃ packet payload length, buffer.packet? d.length = some packet ∧
    r.outcome = .delivered { d with length } ∧
    Packet.encode { packet with payload } = .ok (r.buffer.toBytes.take length) ∧
    (packet.header.WellFormed → r.buffer.payload length = payload) ∧
    payload.length = packet.payload.length ∧
    payload.drop (packet.payload.length - packet.payload.length % frameBytes) =
      packet.payload.drop (packet.payload.length - packet.payload.length % frameBytes)

/-- A packet that is counted as suppressed is aligned, where no incomplete frame waits. -/
theorem Exit.aligned {k : Backend pool engine} {p : pool} {f g : Filter engine} {buffer : Buffer}
    {d : Delivery} {r : Reading} (h : f.Exit k p buffer (.ok d) r g) (hf : f.Coherent)
    (hcarry : f.settings.carryRemainder = false)
    (hcounted : g.counters.packetsSuppressed ≠ f.counters.packetsSuppressed) :
    Aligned buffer d r := by
  obtain ⟨d', e, packet, data, hd, htakes, hdata, hfits, houtcome, hbuffer⟩ :=
    h.written_of_counted hcounted
  cases hd
  rw [suppress_eq_clean _ _ _ _ (by rw [started_settings]; exact hcarry)
    (by rw [started_accumulator]; exact hf.flushed hcarry)] at hdata
  refine ⟨packet, k.clean (f.started k p).settings.threshold e packet.payload, data.length,
    htakes.decoded, houtcome, ?_, fun hwf => ?_, k.length_clean _ e _⟩
  · rw [hbuffer, Buffer.toBytes_overwrite, List.take_left]
    exact hdata
  · rw [hbuffer]
    exact Buffer.payload_overwrite hwf hdata hfits

/-! ### A run -/

/-- A filter at whose next delivery there is the engine `e`, as some frames have left it. -/
def HasHad (k : Backend pool engine) (p : pool) (threshold : Binary.Single) (e : engine)
    (f : Filter engine) : Prop :=
  ∃ past, (f.started k p).stage = .active (k.analyse threshold e past).2

/-- **Every action is answered as if it were the first**, and leaves a filter of which that holds. -/
theorem returned_act {k : Backend pool engine} {p : pool} {f : Filter engine} {e : engine}
    (hk : k.Memoryless f.settings.threshold e) (hf : f.Coherent)
    (hcarry : f.settings.carryRemainder = false) (he : HasHad k p f.settings.threshold e f)
    (a : Action) :
    (f.act k p a).1.returned = a.reply (k.clean f.settings.threshold e) ∧
      HasHad k (f.act k p a).2.2 f.settings.threshold e (f.act k p a).2.1 := by
  obtain ⟨past, hstage⟩ := he
  cases a with
  | read arrival buffer =>
    cases arrival with
    | error why => exact ⟨rfl, past, hstage⟩
    | ok d =>
      have hexit := f.exit_read k p (.ok d) buffer
      constructor
      · refine (hexit.returned hf hcarry hstage).trans ?_
        rw [funext (hk.clean_eq past)]
        rfl
      · obtain ⟨-, hafter⟩ := hexit.engine_eq hstage
        rw [← k.engine_analyse] at hafter
        refine ⟨past ++ (f.read k p (.ok d) buffer).1.analyses.map Analysis.frame, ?_⟩
        change ((f.read k p (.ok d) buffer).2.1.started k _).stage = _
        rw [started_of_active k _ hafter, hafter, k.analyse_append]
  | drain =>
    refine ⟨rfl, past, ?_⟩
    rw [← hstage]
    refine (start_congr k p ?_).1
    rfl

/-- **Every run is answered packet by packet.** -/
theorem map_returned_run {k : Backend pool engine} {e : engine} (actions : List Action) :
    ∀ {p : pool} {f : Filter engine}, k.Memoryless f.settings.threshold e → f.Coherent →
      f.settings.carryRemainder = false → HasHad k p f.settings.threshold e f →
      (f.run k p actions).1.map Turn.returned =
        actions.map (Action.reply (k.clean f.settings.threshold e)) := by
  induction actions with
  | nil => exact fun _ _ _ _ => rfl
  | cons a actions ih =>
    intro p f hk hf hcarry he
    obtain ⟨hreturned, he'⟩ := returned_act hk hf hcarry he a
    have hsettings := settings_act k p f a
    rw [← hsettings] at hk hcarry he'
    have hrest := ih hk (coherent_act k p f a hf) hcarry he'
    rw [run_cons, List.map_cons, List.map_cons, hreturned, hrest, hsettings]

/-- **Packets on their own.** Where no incomplete frame waits,

* nothing waits after any run;
* every read that counts its packet as suppressed hands on one that is aligned with it;
* with an engine without memory, what every read returns is the reply to its packet. The reply looks at
  the bytes that arrived and at the size of the buffer, and at no other packet: to lose packets, to
  double or reorder them changes the list of replies as it changes the list of packets.
-/
theorem run_aligned (k : Backend pool engine) (p : pool) (ssrc : UInt32) {settings : Settings}
    (hcarry : settings.carryRemainder = false) :
    (∀ actions, ((new ssrc settings).run k p actions).2.1.accumulator.waiting = []) ∧
      (∀ actions {f : Filter engine} {q : pool},
        ((new ssrc settings).run k p actions).2 = (f, q) → ∀ d buffer,
          (f.read k q (.ok d) buffer).2.1.counters.packetsSuppressed ≠
            f.counters.packetsSuppressed →
          Aligned buffer d (f.read k q (.ok d) buffer).1) ∧
      ∀ e, (k.create p).1 = .ok e → k.Memoryless settings.threshold e → ∀ actions,
        ((new ssrc settings).run k p actions).1.map Turn.returned =
          actions.map (Action.reply (k.clean settings.threshold e)) := by
  have hsettings : ∀ actions, ((new ssrc settings).run k p actions).2.1.settings = settings :=
    settings_run k p _
  refine ⟨fun actions => ?_, ?_, ?_⟩
  · exact (coherent_run k p ssrc settings actions).flushed (by rw [hsettings]; exact hcarry)
  · intro actions f q hrun d buffer hcounted
    have hf := coherent_run k p ssrc settings actions
    have hsame := hsettings actions
    rw [hrun] at hf hsame
    exact (f.exit_read k q (.ok d) buffer).aligned hf (hsame ▸ hcarry) hcounted
  · intro e he hk actions
    refine map_returned_run actions hk (coherent_new ssrc settings) hcarry ⟨[], ?_⟩
    rw [stage_started_new, he]
    rfl

/-- An engine that turns every frame round. -/
def mirroring : Backend Nat Nat := Script.backend ⟨[], [.reverse]⟩

/-- A frame and ten bytes more. -/
def frameAndTen : Incoming := .plain 1 (Bytes.zeros 970) 4

/-- Two frames less a byte. -/
def nearlyTwo : Incoming := .plain 2 (Bytes.zeros 1919) 0

/-- A packet that arrives before another one and again after it goes on the same both times, aligned. -/
theorem run_aligned_of_mirroring :
    Aligned frameAndTen.buffer frameAndTen.delivery
        ((new 7 Settings.default).read mirroring 0 (.ok frameAndTen.delivery) frameAndTen.buffer).1 ∧
      ∃ first other, ((new 7 Settings.default).run mirroring 0
          [frameAndTen.action, nearlyTwo.action, .drain, frameAndTen.action]).1.map Turn.returned =
        [first, other, none, first] := by
  obtain ⟨-, haligned, hreturned⟩ := run_aligned mirroring 0 7
    (show Settings.default.carryRemainder = false from rfl)
  constructor
  · obtain ⟨i, hi⟩ : ∃ i, frameAndTen = i := ⟨_, rfl⟩
    have hlen : i.packet.payload.length = 970 := by
      rw [← hi]
      exact Bytes.length_zeros 970
    have hsize : i.buffer.size = 986 := by
      rw [← hi, frameAndTen, Incoming.size_buffer_plain, Bytes.length_zeros]
    have hheader : i.packet.header = Incoming.plainHeader 1 := by
      rw [← hi]
      rfl
    have hfits : i.packet.header.size + ([] ++ i.packet.payload).length + 4 ≤ i.buffer.size := by
      rw [hheader, hsize, List.nil_append, hlen]
      exact show 12 + 970 + 4 ≤ 986 by omega
    have hlong : frameBytes ≤ i.packet.payload.length := by
      rw [hlen]
      exact show 960 ≤ 970 by omega
    rw [hi]
    have hexit := (new 7 Settings.default).exit_read mirroring 0 (.ok i.delivery) i.buffer
    have hnone := hexit.fallbacks_of_fits i.decoded (by rw [hheader]; rfl) hfits
    have hafter := (hexit.handles rfl i.wellFormed i.decoded hnone).filter
    refine haligned [] rfl i.delivery i.buffer ?_
    rw [hafter, suppressed_handled mirroring _ (isShort_eq_false hlong)]
    exact Nat.succ_ne_self _
  · exact ⟨_, _, hreturned 0 rfl (Script.memoryless [] .reverse _ 0) _⟩

end Filter

end NoiseFilter
