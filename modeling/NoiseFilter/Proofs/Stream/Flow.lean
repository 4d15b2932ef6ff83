import NoiseFilter.Proofs.Stream.Counting

/-!
# Reads without a fallback

As long as no processed packet has to be given up, a filter is a machine on payloads: it takes one in
and sends one on, and headers and buffers do not matter. `Filter.handle` is one step of that machine and
`Filter.flow` a run of it, and the two facts that lead to it are

* `Filter.Exit.handles`: a read of a packet at which no fallback is counted is such a step;
* `Filter.run_incoming`: a run of such reads is a run of the machine.

A read is sure to have no fallback where the buffer has room for all that waited and arrived
(`Filter.Exit.fallbacks_of_fits`).
-/

namespace NoiseFilter

open Rtp

namespace Filter

variable {pool engine : Type}

/-! ### The machine on payloads -/

/-- **A payload handled**: passed on where it is too short, and put to the engine otherwise. -/
def handle (k : Backend pool engine) (f : Filter engine) (e : engine) (payload : Bytes) :
    Suppression engine :=
  if f.isShort payload then ⟨payload, f.accumulator, e, []⟩ else f.suppress k e payload

/-- The filter that has handled a payload. -/
def handled (k : Backend pool engine) (f : Filter engine) (e : engine) (payload : Bytes) :
    Filter engine :=
  let s := f.handle k e payload
  { f with
    stage := .active s.engine
    accumulator := s.accumulator
    counters :=
      if f.isShort payload then f.counters.packetPassed
      else (Analysis.tally s.analyses f.counters).packetSuppressed }

/-- What comes of a run of payloads: the payloads sent on, the analyses of all frames, and the filter at
the end. -/
structure Flow (engine : Type) where
  sent : List Bytes
  analyses : List Analysis
  filter : Filter engine

/-- **Payloads handled in order.** -/
def flow (k : Backend pool engine) : Filter engine → engine → List Bytes → Flow engine
  | f, _, [] => ⟨[], [], f⟩
  | f, e, payload :: payloads =>
    let s := f.handle k e payload
    let rest := flow k (f.handled k e payload) s.engine payloads
    ⟨s.payload :: rest.sent, s.analyses ++ rest.analyses, rest.filter⟩

section Handle

variable (k : Backend pool engine) {f : Filter engine} (e : engine) {payload : Bytes}

theorem handle_of_isShort (h : f.isShort payload = true) :
    f.handle k e payload = ⟨payload, f.accumulator, e, []⟩ := if_pos h

theorem handle_of_not_isShort (h : f.isShort payload = false) :
    f.handle k e payload = f.suppress k e payload := if_neg (by rw [h]; exact Bool.false_ne_true)

/-- A payload of a frame or more is not short. -/
theorem isShort_eq_false (h : frameBytes ≤ payload.length) : f.isShort payload = false := by
  rw [isShort, decide_eq_false (Nat.not_lt.2 h), Bool.false_and]

/-- Less than a frame in front of which nothing waits is short. -/
theorem isShort_eq_true (h : payload.length < frameBytes) (hwaiting : f.accumulator.waiting = []) :
    f.isShort payload = true := by
  rw [isShort, decide_eq_true h, hwaiting, List.isEmpty_nil, Bool.or_true, Bool.and_self]

/-- What is short is less than a frame. -/
theorem length_lt_of_isShort (h : f.isShort payload = true) : payload.length < frameBytes := by
  rw [isShort, Bool.and_eq_true, decide_eq_true_eq] at h
  exact h.1

variable (f payload) in
/-- **Handling loses and makes no byte.** -/
theorem length_handle :
    (f.handle k e payload).payload.length + (f.handle k e payload).accumulator.waiting.length =
      f.accumulator.waiting.length + payload.length := by
  cases h : f.isShort payload with
  | true =>
    rw [handle_of_isShort k e h]
    exact Nat.add_comm _ _
  | false =>
    rw [handle_of_not_isShort k e h, length_suppress, List.length_append]

variable (payload) in
/-- **The frames handled** are as many as there are bytes for. -/
theorem Coherent.length_analyses_handle (hf : f.Coherent) :
    (f.handle k e payload).analyses.length =
      (f.accumulator.waiting.length + payload.length) / frameBytes := by
  cases h : f.isShort payload with
  | true =>
    rw [handle_of_isShort k e h, hf.waiting_eq_nil h, List.length_nil, List.length_nil, Nat.zero_add,
      Nat.div_eq_of_lt (length_lt_of_isShort h)]
  | false =>
    rw [handle_of_not_isShort k e h, analyses_suppress, Backend.length_analyse,
      (f.accumulator.length_feed payload).1, List.length_append]

/-- Less than a frame waits, and goes on to. -/
theorem waiting_handle_lt (hlt : f.accumulator.waiting.length < frameBytes) :
    (f.handle k e payload).accumulator.waiting.length < frameBytes := by
  cases h : f.isShort payload with
  | true =>
    rw [handle_of_isShort k e h]
    exact hlt
  | false =>
    rw [handle_of_not_isShort k e h]
    exact f.waiting_suppress_lt k e payload

/-- Nothing waits behind a payload of less than a frame, if nothing waited in front of it. -/
theorem waiting_handle_of_lt (hshort : payload.length < frameBytes)
    (hwaiting : f.accumulator.waiting = []) :
    (f.handle k e payload).accumulator.waiting = [] := by
  rw [handle_of_isShort k e (isShort_eq_true hshort hwaiting)]
  exact hwaiting

variable (payload) in
/-- A coherent filter stays coherent. -/
theorem Coherent.handled (hf : f.Coherent) : (f.handled k e payload).Coherent := by
  refine ⟨fun hidle => absurd rfl (hidle _), fun hcarry => ?_⟩
  change (f.handle k e payload).accumulator.waiting = []
  cases h : f.isShort payload with
  | true =>
    rw [handle_of_isShort k e h]
    exact hf.flushed hcarry
  | false =>
    rw [handle_of_not_isShort k e h, (f.suppress_of_flushes k e payload (.inl hcarry)).2]
    rfl

variable (f payload) in
/-- **What is counted for a payload**: one packet, its frames, and no fallback. -/
theorem counters_handled :
    (f.handled k e payload).counters.packets = f.counters.packets + 1 ∧
      (f.handled k e payload).counters.frames =
        f.counters.frames + (f.handle k e payload).analyses.length ∧
      (f.handled k e payload).counters.fallbacks = f.counters.fallbacks := by
  obtain ⟨s, hs⟩ : ∃ s, f.handle k e payload = s := ⟨_, rfl⟩
  rw [Filter.handled, hs]
  cases h : f.isShort payload with
  | true =>
    rw [handle_of_isShort k e h] at hs
    subst hs
    exact ⟨rfl, rfl, rfl⟩
  | false =>
    obtain ⟨hsuppressed, hpassed, hfallbacks⟩ := Analysis.packets_tally s.analyses f.counters
    refine ⟨?_, Analysis.frames_tally _ _, hfallbacks⟩
    simp only [Bool.false_eq_true, if_false, Counters.packets_packetSuppressed]
    rw [Counters.packets, hsuppressed, hpassed]
    rfl

/-- A payload that is not short is counted as suppressed. -/
theorem suppressed_handled (h : f.isShort payload = false) :
    (f.handled k e payload).counters.packetsSuppressed = f.counters.packetsSuppressed + 1 := by
  rw [Filter.handled, h]
  exact congrArg (· + 1) (Analysis.packets_tally _ f.counters).1

end Handle

/-! ### A run of the machine -/

section Flow

variable (k : Backend pool engine)

/-- **A flow loses and makes no byte.** -/
theorem length_flow (payloads : List Bytes) : ∀ (f : Filter engine) (e : engine),
    (f.flow k e payloads).sent.flatten.length +
        (f.flow k e payloads).filter.accumulator.waiting.length =
      f.accumulator.waiting.length + payloads.flatten.length := by
  induction payloads with
  | nil => exact fun f e => Nat.add_comm _ _
  | cons payload payloads ih =>
    intro f e
    have hone := f.length_handle k e payload
    have hrest := ih (f.handled k e payload) (f.handle k e payload).engine
    change _ = (f.handle k e payload).accumulator.waiting.length + _ at hrest
    rw [flow, List.flatten_cons, List.flatten_cons, List.length_append, List.length_append]
    dsimp only
    omega

/-- **What is counted in a flow**: every packet, every frame, and no fallback. -/
theorem counters_flow (payloads : List Bytes) : ∀ (f : Filter engine) (e : engine),
    (f.flow k e payloads).filter.counters.packets = f.counters.packets + payloads.length ∧
      (f.flow k e payloads).filter.counters.frames =
        f.counters.frames + (f.flow k e payloads).analyses.length ∧
      (f.flow k e payloads).filter.counters.fallbacks = f.counters.fallbacks := by
  induction payloads with
  | nil => exact fun f e => ⟨rfl, rfl, rfl⟩
  | cons payload payloads ih =>
    intro f e
    obtain ⟨hpackets, hframes, hfallbacks⟩ := f.counters_handled k e payload
    obtain ⟨hpackets', hframes', hfallbacks'⟩ :=
      ih (f.handled k e payload) (f.handle k e payload).engine
    rw [flow, List.length_cons, List.length_append]
    refine ⟨?_, ?_, hfallbacks'.trans hfallbacks⟩
    · rw [hpackets', hpackets]
      omega
    · rw [hframes', hframes]
      omega

/-- **Where no incomplete frame waits**, the frames of a flow are those of its payloads one by one. -/
theorem length_analyses_flow_of_flushed (payloads : List Bytes) :
    ∀ {f : Filter engine} (e : engine), f.Coherent → f.settings.carryRemainder = false →
      (f.flow k e payloads).analyses.length =
        payloads.foldr (fun payload frames => payload.length / frameBytes + frames) 0 := by
  induction payloads with
  | nil => exact fun e _ _ => rfl
  | cons payload payloads ih =>
    intro f e hf hcarry
    have hone := hf.length_analyses_handle k e payload
    have hrest := ih (f.handle k e payload).engine (hf.handled k e payload) hcarry
    rw [hf.flushed hcarry, List.length_nil, Nat.zero_add] at hone
    rw [flow, List.foldr_cons, List.length_append, hone, hrest]

/-- **Payloads of less than a frame** go on as they arrive, if nothing waits in front of them. -/
theorem flow_of_short (payloads : List Bytes) :
    ∀ {f : Filter engine} (e : engine), (∀ payload ∈ payloads, payload.length < frameBytes) →
      f.accumulator.waiting = [] →
      (f.flow k e payloads).sent = payloads ∧ (f.flow k e payloads).analyses = [] := by
  induction payloads with
  | nil => exact fun e _ _ => ⟨rfl, rfl⟩
  | cons payload payloads ih =>
    intro f e hshort hwaiting
    obtain ⟨hpayload, hrest⟩ := List.forall_mem_cons.1 hshort
    have hhandle := handle_of_isShort k e (isShort_eq_true hpayload hwaiting)
    have hwaiting' : (f.handled k e payload).accumulator.waiting = [] :=
      waiting_handle_of_lt k e hpayload hwaiting
    obtain ⟨hsent, hanalyses⟩ := ih (f.handle k e payload).engine hrest hwaiting'
    rw [flow, hsent, hanalyses, hhandle]
    exact ⟨rfl, rfl⟩

end Flow

/-! ### Reads that are steps of the machine -/

/-- **A read delivers a payload** in answer to a packet. -/
inductive Delivers (buffer : Buffer) (d : Delivery) (packet : Packet) (r : Reading) : Bytes → Prop
  /-- The packet goes on as it arrived, with its own payload. -/
  | arrived (houtcome : r.outcome = .delivered d) (hbuffer : r.buffer = buffer) :
      Delivers buffer d packet r packet.payload
  /-- The packet is written anew, with another payload. -/
  | written {payload data : Bytes} (hdata : Packet.encode { packet with payload } = .ok data)
      (hfits : data.length ≤ buffer.size)
      (houtcome : r.outcome = .delivered { d with length := data.length })
      (hbuffer : r.buffer = buffer.overwrite data) : Delivers buffer d packet r payload

section Delivers

variable {buffer : Buffer} {d : Delivery} {packet : Packet} {r : Reading} {payload : Bytes}

/-- The buffer keeps its size. -/
theorem Delivers.size_eq (h : Delivers buffer d packet r payload) : r.buffer.size = buffer.size := by
  cases h with
  | arrived houtcome hbuffer => rw [hbuffer]
  | written hdata hfits houtcome hbuffer => rw [hbuffer, Buffer.size_overwrite _ _ hfits]

/-- **Whoever reads the packet finds the payload.** -/
theorem Delivers.packet? (h : Delivers buffer d packet r payload)
    (hwf : packet.header.WellFormed) (hpacket : buffer.packet? d.length = some packet) :
    ∃ d' what, r.outcome = .delivered d' ∧ r.buffer.packet? d'.length = some what ∧
      what.payload = payload := by
  cases h with
  | arrived houtcome hbuffer => exact ⟨d, packet, houtcome, by rw [hbuffer]; exact hpacket, rfl⟩
  | written hdata hfits houtcome hbuffer =>
    refine ⟨_, ⟨packet.header.rewritten, payload⟩, houtcome, ?_, rfl⟩
    rw [hbuffer]
    exact Buffer.packet?_overwrite hwf hdata hfits

end Delivers

/-- **A read has handled a payload**: the packet in the buffer afterwards carries what was to be sent on,
and the filter is as it is to be. -/
structure Handles (k : Backend pool engine) (f : Filter engine) (e : engine) (buffer : Buffer)
    (payload : Bytes) (r : Reading) (g : Filter engine) : Prop where
  sent : ∃ d what, r.outcome = .delivered d ∧ r.buffer.packet? d.length = some what ∧
    what.payload = (f.handle k e payload).payload
  size : r.buffer.size = buffer.size
  analyses : r.analyses = (f.handle k e payload).analyses
  filter : g = f.handled k e payload

/-- The filter that a delivery meets, if there is an engine to be had. -/
theorem started_of_stage {k : Backend pool engine} {p : pool} {f : Filter engine} {e : engine}
    (h : (f.started k p).stage = .active e) : f.started k p = { f with stage := .active e } := by
  obtain ⟨stage, hstarted⟩ := f.started_eq k p
  rw [hstarted] at h ⊢
  rw [show stage = .active e from h]

/-- **A packet with a frame in it** is one for the engine. -/
theorem takes_of_long {k : Backend pool engine} {p : pool} {f : Filter engine} {e : engine}
    {d : Delivery} {buffer : Buffer} {packet : Packet} (hstage : (f.started k p).stage = .active e)
    (hpacket : buffer.packet? d.length = some packet) (hlong : frameBytes ≤ packet.payload.length) :
    (f.started k p).Takes e d buffer packet :=
  ⟨hstage, hpacket, isShort_eq_false hlong⟩

/-- **A read without a fallback delivers its payload handled.** -/
theorem Exit.delivers {k : Backend pool engine} {p : pool} {f g : Filter engine} {buffer : Buffer}
    {d : Delivery} {r : Reading} (h : f.Exit k p buffer (.ok d) r g) {e : engine} {packet : Packet}
    (hstage : (f.started k p).stage = .active e) (hpacket : buffer.packet? d.length = some packet)
    (hnone : g.counters.fallbacks = f.counters.fallbacks) :
    Delivers buffer d packet r (f.handle k e packet.payload).payload ∧
      r.analyses = (f.handle k e packet.payload).analyses ∧ g = f.handled k e packet.payload := by
  have hstarted := started_of_stage hstage
  -- the engine is the one at hand, and so is the packet
  have htaken : ∀ {e' packet'}, (f.started k p).Takes e' d buffer packet' →
      e' = e ∧ packet' = packet ∧ f.isShort packet.payload = false := by
    intro e' packet' htakes
    obtain rfl := htakes.unique hpacket
    refine ⟨htakes.engine_unique hstage, rfl, ?_⟩
    have hlong := htakes.long
    rw [hstarted] at hlong
    exact hlong
  cases h with
  | degraded _ notices hquiet hidle => exact absurd hstage (hidle e)
  | overrun _ e' notices hquiet hstage' hsize hfault =>
    exact absurd hfault (Buffer.decode_ne_error_of_packet? hpacket _)
  | unread _ e' notices hquiet hstage' hfault =>
    exact absurd hfault (Buffer.not_unread_of_packet? hpacket)
  | short _ e' packet' notices hquiet hstage' hpacket' hshort =>
    obtain rfl : packet' = packet := Option.some.inj (hpacket'.symm.trans hpacket)
    have hshort' : f.isShort packet'.payload = true := by
      rw [hstarted] at hshort
      exact hshort
    have hhandle := handle_of_isShort k e hshort'
    refine ⟨?_, by rw [hhandle], ?_⟩
    · rw [hhandle]
      exact .arrived rfl rfl
    · rw [hstarted, handled, hhandle, if_pos hshort']
      rfl
  | suppressed _ e' packet' data notices hquiet htakes hdata hfits =>
    obtain ⟨rfl, rfl, hlong⟩ := htaken htakes
    rw [hstarted] at hdata ⊢
    have hhandle := handle_of_not_isShort k e' hlong
    refine ⟨?_, by rw [hhandle]; rfl, ?_⟩
    · rw [hhandle]
      exact .written hdata hfits rfl rfl
    · rw [handled, hhandle, hlong]
      rfl
  | gaveUp _ e' packet' => exact absurd hnone (f.fallbacks_fallenBack_ne k p e' _ _)
  | released _ e' packet' => exact absurd hnone (f.fallbacks_fallenBack_ne k p e' _ _)
  | dropped _ e' packet' => exact absurd hnone (f.fallbacks_fallenBack_ne k p e' _ _)

/-- **A read without a fallback handles the payload of its packet**, and the next reader finds it handled. -/
theorem Exit.handles {k : Backend pool engine} {p : pool} {f g : Filter engine} {buffer : Buffer}
    {d : Delivery} {r : Reading} (h : f.Exit k p buffer (.ok d) r g) {e : engine} {packet : Packet}
    (hstage : (f.started k p).stage = .active e) (hwf : packet.header.WellFormed)
    (hpacket : buffer.packet? d.length = some packet)
    (hnone : g.counters.fallbacks = f.counters.fallbacks) :
    f.Handles k e buffer packet.payload r g := by
  obtain ⟨hdelivers, hanalyses, hfilter⟩ := h.delivers hstage hpacket hnone
  exact ⟨hdelivers.packet? hwf hpacket, hdelivers.size_eq, hanalyses, hfilter⟩

/-! ### Room enough -/

/-- **A processed packet goes into a buffer that has room for all that waited and arrived.** -/
theorem not_unfit_suppress (k : Backend pool engine) {f : Filter engine} (e : engine)
    {buffer : Buffer} {packet : Packet} (hspelled : packet.header.spell.length = packet.header.size)
    (hfits : packet.header.size + (f.backlog packet).length + 4 ≤ buffer.size) :
    ¬ Unfit { packet with payload := (f.suppress k e packet.payload).payload } buffer := by
  intro hunfit
  have hlarge := unfit_iff.1 hunfit hspelled
  have hlen := f.length_suppress k e packet.payload
  have hpad := Packet.paddingBytes_le
    { packet with payload := (f.suppress k e packet.payload).payload }
  rw [backlog] at hfits
  rw [Packet.size] at hlarge
  dsimp only at hlarge
  omega

/-- **Where the processed packet goes into the buffer there is no fallback.** -/
theorem Exit.fallbacks_of_not_unfit {k : Backend pool engine} {p : pool} {f g : Filter engine}
    {buffer : Buffer} {d : Delivery} {r : Reading} {packet : Packet}
    (h : f.Exit k p buffer (.ok d) r g) (hpacket : buffer.packet? d.length = some packet)
    (hroom : ∀ e, ¬ Unfit { packet with
      payload := ((f.started k p).suppress k e packet.payload).payload } buffer) :
    g.counters.fallbacks = f.counters.fallbacks := by
  have hstarted := started_counters k p f
  have hnever : ∀ {e packet'}, (f.started k p).Takes e d buffer packet' →
      ¬ Unfit { packet' with
        payload := ((f.started k p).suppress k e packet'.payload).payload } buffer := by
    intro e packet' htakes
    obtain rfl := htakes.unique hpacket
    exact hroom e
  cases h with
  | overrun => rw [hstarted]
  | degraded | unread | short =>
    rw [passed, hstarted]
    rfl
  | suppressed _ e packet' => exact (f.counters_analysed k p e packet'.payload).2.2
  | gaveUp _ e packet' notices hquiet htakes hunfit => exact absurd hunfit (hnever htakes)
  | released _ e packet' data notices hquiet htakes hunfit => exact absurd hunfit (hnever htakes)
  | dropped _ e packet' notices hdrop htakes hunfit => exact absurd hunfit (hnever htakes)

/-- **With room enough there is no fallback.** -/
theorem Exit.fallbacks_of_fits {k : Backend pool engine} {p : pool} {f g : Filter engine}
    {buffer : Buffer} {d : Delivery} {r : Reading} {packet : Packet}
    (h : f.Exit k p buffer (.ok d) r g) (hpacket : buffer.packet? d.length = some packet)
    (hspelled : packet.header.spell.length = packet.header.size)
    (hfits : packet.header.size + (f.backlog packet).length + 4 ≤ buffer.size) :
    g.counters.fallbacks = f.counters.fallbacks := by
  refine h.fallbacks_of_not_unfit hpacket fun e => not_unfit_suppress k e hspelled ?_
  rw [backlog, started_accumulator]
  exact hfits

/-! ### Runs of packets -/

/-- **A packet that arrives**: its delivery and the buffer in which it lies. Its header can be written
again and read, as that of every packet of at most 65535 bytes can
(`NoiseFilter.Buffer.wellFormed_of_packet?`). -/
structure Incoming where
  delivery : Delivery
  buffer : Buffer
  packet : Packet
  decoded : buffer.packet? delivery.length = some packet
  wellFormed : packet.header.WellFormed

namespace Incoming

/-- The read by which it arrives. -/
def action (i : Incoming) : Action := .read (.ok i.delivery) i.buffer

/-- Its payload. -/
def payload (i : Incoming) : Bytes := i.packet.payload

/-- **Room for a frame more**: the buffer takes the packet with less than a frame put in front of its
payload. -/
structure Roomy (i : Incoming) : Prop where
  spelled : i.packet.header.spell.length = i.packet.header.size
  fits : i.packet.header.size + frameBytes + i.payload.length + 3 ≤ i.buffer.size

/-- A header of version two that says nothing but a number. -/
def plainHeader (sequence : UInt16) : Header :=
  ⟨(Fin.last 2).castSucc, false, none, false, 111, sequence, 48000, 12345, []⟩

theorem wellFormed_plainHeader (sequence : UInt16) : (plainHeader sequence).WellFormed :=
  ⟨show (111 : UInt8).toNat < 128 by decide, Nat.zero_lt_succ _, fun b hb => nomatch hb⟩

/-- **A plain packet**, in a buffer with `spare` bytes after it. -/
def plain (sequence : UInt16) (payload : Bytes) (spare : Nat) : Incoming where
  delivery := ⟨(Packet.spell ⟨plainHeader sequence, payload⟩).length, []⟩
  buffer := ⟨Packet.spell ⟨plainHeader sequence, payload⟩, spare⟩
  packet := ⟨plainHeader sequence, payload⟩
  decoded := by
    refine Buffer.packet?_eq_some.2 ⟨Nat.le_add_right _ _, ?_⟩
    rw [Buffer.toBytes, List.take_left]
    exact Packet.decode_of_encode (wellFormed_plainHeader sequence) (Packet.encode_eq_ok.2 rfl)
  wellFormed := wellFormed_plainHeader sequence

/-- Buffers of plain packets are as large as one thinks. -/
theorem size_buffer_plain (sequence : UInt16) (payload : Bytes) (spare : Nat) :
    (plain sequence payload spare).buffer.size = 12 + payload.length + spare := by
  change (Packet.spell ⟨plainHeader sequence, payload⟩).length + spare = _
  rw [Packet.length_spell, Packet.paddingBytes_of_unpadded rfl]
  rfl

/-- A plain packet has room for a frame more, if there is as much behind it. -/
theorem roomy_plain (sequence : UInt16) (payload : Bytes) {spare : Nat} (h : 963 ≤ spare) :
    (plain sequence payload spare).Roomy := by
  refine ⟨rfl, ?_⟩
  rw [size_buffer_plain]
  change 12 + 960 + payload.length + 3 ≤ _
  omega

end Incoming

/-- The read of a packet, as a turn: what it delivers and what it puts to the engine. -/
theorem act_of_handles {k : Backend pool engine} {p : pool} {f : Filter engine} {e : engine}
    {i : Incoming} (h : f.Handles k e i.buffer i.payload (f.read k p (.ok i.delivery) i.buffer).1
      (f.read k p (.ok i.delivery) i.buffer).2.1) :
    (f.act k p i.action).1.delivered = (f.handle k e i.payload).payload ∧
      (f.act k p i.action).1.analyses = (f.handle k e i.payload).analyses ∧
      (f.act k p i.action).2.1 = f.handled k e i.payload := by
  obtain ⟨⟨d, what, houtcome, hwhat, hsent⟩, -, hanalyses, hfilter⟩ := h
  refine ⟨?_, hanalyses, hfilter⟩
  rw [Incoming.action, act_read, Turn.delivered, houtcome]
  exact (Buffer.payload_of_packet? hwhat).trans hsent

/-- The filter that has handled a payload has the engine that worked on it. -/
theorem stage_started_handled (k : Backend pool engine) (p : pool) (f : Filter engine) (e : engine)
    (payload : Bytes) :
    ((f.handled k e payload).started k p).stage = .active (f.handle k e payload).engine := by
  rw [started_of_active k p rfl]
  rfl

/-- **A run without a fallback is a flow** of the payloads that arrive. -/
theorem run_incoming (k : Backend pool engine) (arrivals : List Incoming) :
    ∀ (p : pool) {f : Filter engine} {e : engine}, (f.started k p).stage = .active e →
      (f.run k p (arrivals.map Incoming.action)).2.1.counters.fallbacks = f.counters.fallbacks →
      (f.run k p (arrivals.map Incoming.action)).1.flatMap Turn.delivered =
          (f.flow k e (arrivals.map Incoming.payload)).sent.flatten ∧
        (f.run k p (arrivals.map Incoming.action)).1.flatMap Turn.analyses =
          (f.flow k e (arrivals.map Incoming.payload)).analyses ∧
        (f.run k p (arrivals.map Incoming.action)).2.1.accumulator =
          (f.flow k e (arrivals.map Incoming.payload)).filter.accumulator := by
  induction arrivals with
  | nil => exact fun p f e _ _ => ⟨rfl, rfl, rfl⟩
  | cons i arrivals ih =>
    intro p f e hstage hnone
    have hexit := f.exit_read k p (.ok i.delivery) i.buffer
    rw [List.map_cons] at hnone ⊢
    obtain ⟨hfirst, hlater⟩ := fallbacks_of_run_cons k hnone
    rw [run_cons]
    obtain ⟨hdelivered, hanalyses, hact⟩ :=
      act_of_handles (hexit.handles hstage i.wellFormed i.decoded hfirst)
    have hstage' := f.stage_started_handled k (f.act k p i.action).2.2 e i.payload
    rw [← hact] at hstage'
    obtain ⟨hdelivered', hanalyses', haccumulator⟩ := ih _ hstage' hlater
    rw [hact] at hdelivered' hanalyses' haccumulator ⊢
    rw [List.flatMap_cons, List.flatMap_cons, hdelivered, hdelivered', hanalyses, hanalyses',
      haccumulator, List.map_cons, flow, List.flatten_cons]
    exact ⟨rfl, rfl, rfl⟩

/-- **Packets with room for a frame more** pass without a fallback. -/
theorem fallbacks_run_of_roomy (k : Backend pool engine) (arrivals : List Incoming) :
    ∀ (p : pool) {f : Filter engine} {e : engine}, (∀ i ∈ arrivals, i.Roomy) →
      (f.started k p).stage = .active e → f.accumulator.waiting.length < frameBytes →
      (f.run k p (arrivals.map Incoming.action)).2.1.counters.fallbacks = f.counters.fallbacks := by
  induction arrivals with
  | nil => exact fun p f e _ _ _ => rfl
  | cons i arrivals ih =>
    intro p f e hroomy hstage hlt
    obtain ⟨hi, hrest⟩ := List.forall_mem_cons.1 hroomy
    have hexit := f.exit_read k p (.ok i.delivery) i.buffer
    have hfirst : (f.act k p i.action).2.1.counters.fallbacks = f.counters.fallbacks := by
      refine hexit.fallbacks_of_fits i.decoded hi.spelled ?_
      have hfits := hi.fits
      rw [Incoming.payload] at hfits
      rw [backlog, List.length_append]
      omega
    obtain ⟨-, -, hact⟩ := act_of_handles (hexit.handles hstage i.wellFormed i.decoded hfirst)
    have hstage' := f.stage_started_handled k (f.act k p i.action).2.2 e i.payload
    have hlt' : (f.handled k e i.payload).accumulator.waiting.length < frameBytes :=
      waiting_handle_lt k e hlt
    rw [List.map_cons, run_cons, ← hfirst]
    rw [← hact] at hstage' hlt'
    exact ih _ hrest hstage' hlt'

/-- **Without an engine** every payload goes on as it arrived, and nothing waits. -/
theorem run_incoming_of_degraded (k : Backend pool engine) (arrivals : List Incoming) :
    ∀ (p : pool) {f : Filter engine}, (∀ e, (f.started k p).stage ≠ .active e) →
      f.accumulator.waiting = [] →
      (f.run k p (arrivals.map Incoming.action)).1.flatMap Turn.delivered =
          (arrivals.map Incoming.payload).flatten ∧
        (f.run k p (arrivals.map Incoming.action)).1.flatMap Turn.analyses = [] ∧
        (f.run k p (arrivals.map Incoming.action)).2.1.accumulator.waiting = [] := by
  induction arrivals with
  | nil => exact fun p f _ hwaiting => ⟨rfl, rfl, hwaiting⟩
  | cons i arrivals ih =>
    intro p f hstage hwaiting
    have hread := read_of_degraded k p hstage i.delivery i.buffer
    have hact : (f.act k p i.action).2.1 = (f.started k p).passed := by
      change (f.read k p (.ok i.delivery) i.buffer).2.1 = _
      rw [hread]
    have hturn : (f.act k p i.action).1 = .read f (.ok i.delivery) i.buffer
        ⟨.delivered i.delivery, i.buffer, (f.start k p).1 ++ [], []⟩ := by
      change Turn.read f _ _ (f.read k p (.ok i.delivery) i.buffer).1 = _
      rw [hread]
    have hstage' : ∀ q e, (((f.started k p).passed).started k q).stage ≠ .active e := by
      intro q e
      have hsettled : ((f.started k p).passed).stage ≠ .uninitialized := f.started_settled k p
      rw [started_of_settled k q hsettled]
      exact hstage e
    obtain ⟨hdelivered, hanalyses, hrest⟩ := ih (f.act k p i.action).2.2 (hstage' _)
      (show (f.started k p).accumulator.waiting = [] by rw [started_accumulator, hwaiting])
    rw [List.map_cons, run_cons, List.flatMap_cons, List.flatMap_cons, hact, hturn, hdelivered,
      hanalyses, List.map_cons, List.flatten_cons]
    exact ⟨congrArg (· ++ _) (Buffer.payload_of_packet? i.decoded), rfl, hrest⟩

end Filter

end NoiseFilter
