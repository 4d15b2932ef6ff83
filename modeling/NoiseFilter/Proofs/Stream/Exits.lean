import NoiseFilter.Proofs.Rtp.Buffered
import NoiseFilter.Stream.Filter

/-!
# The exits of a read

A read of a filter leaves through one of nine exits, and `Filter.Exit` has one constructor for each,
with the condition under which it is taken and all that it leaves behind. `Filter.exit_read` says that
there are no others. What a filter does is proved by going through the exits, and nothing after this
file unfolds `Filter.read`. Where the bytes are known to be a packet for the engine, two cases are left,
that the processed packet fits and that it does not (`Filter.Exit.of_takes`).

Seven exits hand the packet on, and differ in what is in the buffer and in what waits:

| exit | the packet goes on | what waits afterwards |
|---|---|---|
| `degraded`, `unread`, `short` | as it arrived | what waited before |
| `suppressed` | with the payload from the engine | what `Filter.suppress` left |
| `gaveUp` | as it arrived | nothing, and nothing had waited |
| `released` | with the waiting bytes in front of its payload | what did not fit |
| `dropped` | as it arrived | nothing: what had waited is lost |

The other two are `failed`, an error of the transport, and `overrun`, where the packet reader aborts.
-/

namespace NoiseFilter

open Rtp

namespace Filter

variable {pool engine : Type}

/-- The filter that a delivery meets: with its engine, if there is one to be had. -/
def started (k : Backend pool engine) (p : pool) (f : Filter engine) : Filter engine :=
  (f.start k p).2.1

/-- The filter that has counted one packet more as passed. -/
def passed (f : Filter engine) : Filter engine := { f with counters := f.counters.packetPassed }

/-- The filter whose engine has seen a payload. -/
def analysed (k : Backend pool engine) (f : Filter engine) (e : engine) (payload : Bytes) :
    Filter engine :=
  let s := f.suppress k e payload
  { f with
    stage := .active s.engine
    accumulator := s.accumulator
    counters := Analysis.tally s.analyses f.counters }

/-- The filter that has given up a processed packet and lets `waiting` wait instead. -/
def fallenBack (f : Filter engine) (waiting : Bytes) : Filter engine :=
  { f with counters := f.counters.fellBack.packetPassed, accumulator := ⟨waiting⟩ }

/-- Everything that has arrived and was not sent on: what waits, and the payload. -/
def backlog (f : Filter engine) (packet : Packet) : Bytes := f.accumulator.waiting ++ packet.payload

theorem length_backlog (f : Filter engine) (packet : Packet) :
    (f.backlog packet).length = f.accumulator.waiting.length + packet.payload.length :=
  List.length_append

/-- No waiting bytes were given up. -/
def Quiet (notices : List Notice) : Prop := ∀ ssrc count, Notice.dropped ssrc count ∉ notices

/-- **A packet for the engine**: the filter has an engine, the bytes are a packet, and there is a frame
in it or something waits in front of it. -/
structure Takes (f : Filter engine) (e : engine) (d : Delivery) (buffer : Buffer)
    (packet : Packet) : Prop where
  stage : f.stage = .active e
  decoded : buffer.packet? d.length = some packet
  long : f.isShort packet.payload = false

theorem Takes.unique {f : Filter engine} {e : engine} {d : Delivery} {buffer : Buffer}
    {packet packet' : Packet} (h : f.Takes e d buffer packet)
    (hpacket : buffer.packet? d.length = some packet') : packet = packet' :=
  Option.some.inj (h.decoded.symm.trans hpacket)

theorem Takes.engine_unique {f : Filter engine} {e e' : engine} {d : Delivery} {buffer : Buffer}
    {packet : Packet} (h : f.Takes e d buffer packet) (hstage : f.stage = .active e') : e = e' :=
  Stage.active.inj (h.stage.symm.trans hstage)

/-- **The exits of a read.** -/
inductive Exit (k : Backend pool engine) (p : pool) (f : Filter engine) (buffer : Buffer) :
    Arrival → Reading → Filter engine → Prop
  /-- The transport failed. -/
  | failed (why : TransportError) : Exit k p f buffer (.error why) ⟨.failed why, buffer, [], []⟩ f
  /-- There is no engine to be had. -/
  | degraded (d : Delivery) (notices : List Notice) (hquiet : Quiet notices)
      (hstage : ∀ e, (f.started k p).stage ≠ .active e) :
      Exit k p f buffer (.ok d) ⟨.delivered d, buffer, notices, []⟩ (f.started k p).passed
  /-- The packet reader aborts. -/
  | overrun (d : Delivery) (e : engine) (notices : List Notice) (hquiet : Quiet notices)
      (hstage : (f.started k p).stage = .active e) (hsize : d.length ≤ buffer.size)
      (hfault : Packet.decode (buffer.toBytes.take d.length) = .error .overrun) :
      Exit k p f buffer (.ok d) ⟨.aborted, buffer, notices, []⟩ (f.started k p)
  /-- The bytes are not all in the buffer, or are no packet. -/
  | unread (d : Delivery) (e : engine) (notices : List Notice) (hquiet : Quiet notices)
      (hstage : (f.started k p).stage = .active e)
      (hfault : d.length ≤ buffer.size →
        ∃ what, Packet.decode (buffer.toBytes.take d.length) = .error (.malformed what)) :
      Exit k p f buffer (.ok d) ⟨.delivered d, buffer, notices, []⟩ (f.started k p).passed
  /-- There is no frame in the packet, and nothing waits in front of it. -/
  | short (d : Delivery) (e : engine) (packet : Packet) (notices : List Notice)
      (hquiet : Quiet notices) (hstage : (f.started k p).stage = .active e)
      (hpacket : buffer.packet? d.length = some packet)
      (hshort : (f.started k p).isShort packet.payload = true) :
      Exit k p f buffer (.ok d) ⟨.delivered d, buffer, notices, []⟩ (f.started k p).passed
  /-- The processed packet fits. -/
  | suppressed (d : Delivery) (e : engine) (packet : Packet) (data : Bytes) (notices : List Notice)
      (hquiet : Quiet notices) (htakes : (f.started k p).Takes e d buffer packet)
      (hdata : Packet.encode { packet with
        payload := ((f.started k p).suppress k e packet.payload).payload } = .ok data)
      (hfits : data.length ≤ buffer.size) :
      Exit k p f buffer (.ok d)
        ⟨.delivered { d with length := data.length }, buffer.overwrite data, notices,
          ((f.started k p).suppress k e packet.payload).analyses⟩
        { (f.started k p).analysed k e packet.payload with
          counters := ((f.started k p).analysed k e packet.payload).counters.packetSuppressed }
  /-- The processed packet does not fit, and nothing had waited. -/
  | gaveUp (d : Delivery) (e : engine) (packet : Packet) (notices : List Notice)
      (hquiet : Quiet notices) (htakes : (f.started k p).Takes e d buffer packet)
      (hunfit : Unfit { packet with
        payload := ((f.started k p).suppress k e packet.payload).payload } buffer)
      (hwaiting : f.accumulator.waiting = []) :
      Exit k p f buffer (.ok d)
        ⟨.delivered d, buffer, notices, ((f.started k p).suppress k e packet.payload).analyses⟩
        (((f.started k p).analysed k e packet.payload).fallenBack [])
  /-- The processed packet does not fit; what had waited goes out, with as much of the payload as
  fits. -/
  | released (d : Delivery) (e : engine) (packet : Packet) (data : Bytes) (notices : List Notice)
      (hquiet : Quiet notices) (htakes : (f.started k p).Takes e d buffer packet)
      (hunfit : Unfit { packet with
        payload := ((f.started k p).suppress k e packet.payload).payload } buffer)
      (hwaiting : f.accumulator.waiting ≠ [])
      (hdata : Packet.encode { packet with
        payload := (f.backlog packet).take (buffer.size - packet.header.size) } = .ok data)
      (hfits : data.length ≤ buffer.size) :
      Exit k p f buffer (.ok d)
        ⟨.delivered { d with length := data.length }, buffer.overwrite data, notices,
          ((f.started k p).suppress k e packet.payload).analyses⟩
        (((f.started k p).analysed k e packet.payload).fallenBack
          ((f.backlog packet).drop (buffer.size - packet.header.size)))
  /-- Nor can what had waited go out: it is lost. -/
  | dropped (d : Delivery) (e : engine) (packet : Packet) (notices : List Notice)
      (hdrop : Notice.dropped f.ssrc f.accumulator.waiting.length ∈ notices)
      (htakes : (f.started k p).Takes e d buffer packet)
      (hunfit : Unfit { packet with
        payload := ((f.started k p).suppress k e packet.payload).payload } buffer)
      (hwaiting : f.accumulator.waiting ≠ [])
      (hnone : Unfit { packet with
        payload := (f.backlog packet).take (buffer.size - packet.header.size) } buffer) :
      Exit k p f buffer (.ok d)
        ⟨.delivered d, buffer, notices, ((f.started k p).suppress k e packet.payload).analyses⟩
        (((f.started k p).analysed k e packet.payload).fallenBack [])

/-! ### Taking an engine changes nothing else -/

section Start

variable (k : Backend pool engine) (p : pool) (f : Filter engine)

/-- **Taking an engine sets the stage**, and leaves all else as it was. -/
theorem started_eq : ∃ stage, f.started k p = { f with stage } := by
  rw [started, start]
  cases f.stage with
  | uninitialized => rcases k.create p with ⟨e | why, p'⟩ <;> exact ⟨_, rfl⟩
  | active e => exact ⟨f.stage, rfl⟩
  | degraded => exact ⟨f.stage, rfl⟩

@[simp] theorem started_ssrc : (f.started k p).ssrc = f.ssrc := by
  obtain ⟨stage, h⟩ := f.started_eq k p
  rw [h]

@[simp] theorem started_settings : (f.started k p).settings = f.settings := by
  obtain ⟨stage, h⟩ := f.started_eq k p
  rw [h]

@[simp] theorem started_accumulator : (f.started k p).accumulator = f.accumulator := by
  obtain ⟨stage, h⟩ := f.started_eq k p
  rw [h]

@[simp] theorem started_counters : (f.started k p).counters = f.counters := by
  obtain ⟨stage, h⟩ := f.started_eq k p
  rw [h]

theorem quiet_start : Quiet (f.start k p).1 := by
  rw [start]
  cases f.stage with
  | uninitialized => rcases k.create p with ⟨e | why, p'⟩ <;> simp [Quiet]
  | active e => simp [Quiet]
  | degraded => simp [Quiet]

end Start

/-! ### The exits, one stage after the other -/

/-- What an engine fails on is on record, and is no loss of waiting bytes. -/
theorem Quiet.append_failures {notices : List Notice} (h : Quiet notices) (ssrc : UInt32)
    (failures : List Failure) : Quiet (failures.map (Notice.frameFailed ssrc) ++ notices) := by
  intro ssrc' count hmem
  rcases List.mem_append.1 hmem with hmem | hmem
  · obtain ⟨why, -, hwhy⟩ := List.mem_map.1 hmem
    cases hwhy
  · exact h ssrc' count hmem

theorem Quiet.append {a b : List Notice} (ha : Quiet a) (hb : Quiet b) : Quiet (a ++ b) := by
  intro ssrc count hmem
  rcases List.mem_append.1 hmem with hmem | hmem
  · exact ha ssrc count hmem
  · exact hb ssrc count hmem

/-- **Releasing** either sends waiting bytes on, or drops them. -/
theorem release_cases (g : Filter engine) (packet : Packet) (carried : Bytes) (d : Delivery)
    (buffer : Buffer) :
    (∃ data, Packet.encode { packet with
        payload := (carried ++ packet.payload).take (buffer.size - packet.header.size) } = .ok data ∧
      data.length ≤ buffer.size ∧
      g.release packet carried d buffer =
        (⟨.delivered { d with length := data.length }, buffer.overwrite data, [], []⟩,
          { g with
            counters := g.counters.packetPassed
            accumulator := ⟨(carried ++ packet.payload).drop (buffer.size - packet.header.size)⟩ })) ∨
    (Unfit { packet with
        payload := (carried ++ packet.payload).take (buffer.size - packet.header.size) } buffer ∧
      g.release packet carried d buffer =
        (⟨.delivered d, buffer, [.dropped g.ssrc carried.length], []⟩,
          { g with counters := g.counters.packetPassed })) := by
  -- taking no more than there is does not matter, and neither does dropping it
  obtain ⟨stream, hstream⟩ : ∃ s, carried ++ packet.payload = s := ⟨_, rfl⟩
  obtain ⟨room, hroom⟩ : ∃ r, buffer.size - packet.header.size = r := ⟨_, rfl⟩
  have htake : stream.take (min stream.length room) = stream.take room :=
    List.take_eq_take_iff.2 (by omega)
  have hdrop : stream.drop (min stream.length room) = stream.drop room :=
    List.drop_eq_drop_iff.2 (by omega)
  rw [release, hstream, hroom]
  simp only [htake, hdrop]
  cases hencode : Packet.encode { packet with payload := stream.take room } with
  | error why =>
    right
    refine ⟨fun data hdata => ?_, rfl⟩
    rw [hencode] at hdata
    cases hdata
  | ok data =>
    by_cases hfits : data.length ≤ buffer.size
    · left
      exact ⟨data, rfl, hfits, by simp only [if_pos hfits]; rfl⟩
    · right
      refine ⟨fun data' hdata => ?_, by simp only [if_neg hfits]⟩
      rw [hencode] at hdata
      cases hdata
      omega

/-- **Delivering** either puts the processed packet into the buffer, or falls back. -/
theorem deliver_cases (g : Filter engine) (packet : Packet) (payload carried : Bytes) (d : Delivery)
    (buffer : Buffer) :
    (∃ data, Packet.encode { packet with payload } = .ok data ∧ data.length ≤ buffer.size ∧
      g.deliver packet payload carried d buffer =
        (⟨.delivered { d with length := data.length }, buffer.overwrite data, [], []⟩,
          { g with counters := g.counters.packetSuppressed })) ∨
    (Unfit { packet with payload } buffer ∧ ∃ why, Quiet [why] ∧
      g.deliver packet payload carried d buffer =
        ({ (g.fallBack packet carried d buffer).1 with
            notices := why :: (g.fallBack packet carried d buffer).1.notices },
          (g.fallBack packet carried d buffer).2)) := by
  rw [deliver]
  cases hencode : Packet.encode { packet with payload } with
  | error why =>
    right
    refine ⟨fun data hdata => ?_, .unwritable g.ssrc why, by simp [Quiet], rfl⟩
    rw [hencode] at hdata
    cases hdata
  | ok data =>
    by_cases hfits : data.length ≤ buffer.size
    · left
      exact ⟨data, rfl, hfits, by simp only [if_pos hfits]⟩
    · right
      refine ⟨fun data' hdata => ?_, .oversize g.ssrc data.length buffer.size, by simp [Quiet],
        by simp only [if_neg hfits]⟩
      rw [hencode] at hdata
      cases hdata
      omega

/-- A packet for the engine leaves through one of four exits. -/
theorem exit_process (k : Backend pool engine) (p : pool) (f : Filter engine) (buffer : Buffer)
    {d : Delivery} {e : engine} {packet : Packet} {notices : List Notice} (hquiet : Quiet notices)
    (htakes : (f.started k p).Takes e d buffer packet) :
    f.Exit k p buffer (.ok d)
      { ((f.started k p).process k e packet d buffer).1 with
        notices := notices ++ ((f.started k p).process k e packet d buffer).1.notices }
      ((f.started k p).process k e packet d buffer).2 := by
  obtain ⟨s, hs⟩ : ∃ s, (f.started k p).suppress k e packet.payload = s := ⟨_, rfl⟩
  obtain ⟨g, hg⟩ : ∃ g, (f.started k p).analysed k e packet.payload = g := ⟨_, rfl⟩
  obtain ⟨failures, hfailures⟩ : ∃ fs, s.analyses.filterMap Analysis.failure? = fs := ⟨_, rfl⟩
  have hprocess : (f.started k p).process k e packet d buffer =
      ({ (g.deliver packet s.payload f.accumulator.waiting d buffer).1 with
          notices := failures.map
              (Notice.frameFailed (g.deliver packet s.payload f.accumulator.waiting d buffer).2.ssrc) ++
            (g.deliver packet s.payload f.accumulator.waiting d buffer).1.notices
          analyses := s.analyses },
        (g.deliver packet s.payload f.accumulator.waiting d buffer).2) := by
    rw [← hfailures, ← hg, ← hs, ← started_accumulator k p f]
    rfl
  have hssrc : g.ssrc = f.ssrc := by
    rw [← hg, ← started_ssrc k p f]
    rfl
  rw [hprocess]
  -- the processed packet goes into the buffer, or else what had waited goes out or is lost
  rcases deliver_cases g packet s.payload f.accumulator.waiting d buffer with
    ⟨data, hdata, hfits, hdeliver⟩ | ⟨hunfit, why, hwhy, hdeliver⟩
  · rw [hdeliver, ← hs, ← hg]
    rw [← hs] at hdata
    exact .suppressed d e packet data _ (hquiet.append (.append_failures (by simp [Quiet]) _ _))
      htakes hdata hfits
  rw [hdeliver, fallBack]
  rw [← hs] at hunfit
  by_cases hwaiting : f.accumulator.waiting = []
  · rw [hwaiting]
    simp only [List.isEmpty_nil, if_true, pass]
    rw [← hs, ← hg]
    exact .gaveUp d e packet _ (hquiet.append (.append_failures hwhy _ _)) htakes hunfit hwaiting
  · have hne : f.accumulator.waiting.isEmpty = false := by simpa using hwaiting
    simp only [hne, Bool.false_eq_true, if_false]
    rcases release_cases { g with
        counters := g.counters.fellBack
        accumulator := g.accumulator.clear } packet f.accumulator.waiting d buffer with
      ⟨data, hdata, hfits, hrelease⟩ | ⟨hnone, hrelease⟩
    · rw [hrelease, ← hs, ← hg]
      exact .released d e packet data _ (hquiet.append (.append_failures hwhy _ _)) htakes hunfit
        hwaiting hdata hfits
    · have hdrop : Notice.dropped f.ssrc f.accumulator.waiting.length ∈
          [Notice.dropped g.ssrc f.accumulator.waiting.length] := by
        rw [hssrc]
        exact List.mem_singleton_self _
      rw [hrelease, ← hs, ← hg]
      rw [← hg] at hdrop
      exact .dropped d e packet _ (List.mem_append_right _ (List.mem_append_right _
        (List.mem_cons_of_mem _ hdrop))) htakes hunfit hwaiting hnone

theorem read_of_active (k : Backend pool engine) (p : pool) {f : Filter engine} {e : engine}
    (h : (f.started k p).stage = .active e) (d : Delivery) (buffer : Buffer) :
    f.read k p (.ok d) buffer =
      ({ ((f.started k p).receive k e d buffer).1 with
          notices := (f.start k p).1 ++ ((f.started k p).receive k e d buffer).1.notices },
        ((f.started k p).receive k e d buffer).2, (f.start k p).2.2) := by
  rw [started] at h ⊢
  rcases hstart : f.start k p with ⟨notices, g, p'⟩
  rw [hstart] at h
  simp only [read, hstart]
  rw [show g.stage = .active e from h]

theorem read_of_degraded (k : Backend pool engine) (p : pool) {f : Filter engine}
    (h : ∀ e, (f.started k p).stage ≠ .active e) (d : Delivery) (buffer : Buffer) :
    f.read k p (.ok d) buffer =
      (⟨.delivered d, buffer, (f.start k p).1 ++ [], []⟩, (f.started k p).passed,
        (f.start k p).2.2) := by
  rw [started] at h ⊢
  rcases hstart : f.start k p with ⟨notices, g, p'⟩
  rw [hstart] at h
  simp only [read, hstart]
  cases hstage : g.stage with
  | active e => exact absurd hstage (h e)
  | uninitialized => rfl
  | degraded => rfl

/-- **A read leaves through one of its exits.** -/
theorem exit_read (k : Backend pool engine) (p : pool) (f : Filter engine) (arrival : Arrival)
    (buffer : Buffer) :
    f.Exit k p buffer arrival (f.read k p arrival buffer).1 (f.read k p arrival buffer).2.1 := by
  cases arrival with
  | error why => exact .failed why
  | ok d =>
    have hquiet := f.quiet_start k p
    by_cases hactive : ∃ e, (f.started k p).stage = .active e
    · obtain ⟨e, hstage⟩ := hactive
      obtain ⟨g, hg⟩ : ∃ g, f.started k p = g := ⟨_, rfl⟩
      have hpass : Quiet ((f.start k p).1 ++ []) := hquiet.append (by simp [Quiet])
      rw [read_of_active k p hstage]
      -- from here the cases are those of `Filter.receive`, from the bytes to the payload
      by_cases hsize : d.length ≤ buffer.size
      · have hwindow := Buffer.window?_eq_some.2 ⟨hsize, rfl⟩
        cases hdecode : Packet.decode (buffer.toBytes.take d.length) with
        | error fault =>
          cases fault with
          | overrun =>
            have hreceive : g.receive k e d buffer = (⟨.aborted, buffer, [], []⟩, g) := by
              simp only [receive, hwindow, hdecode]
            rw [hg, hreceive, ← hg]
            exact .overrun d e _ hpass hstage hsize hdecode
          | malformed what =>
            have hreceive : g.receive k e d buffer =
                (⟨.delivered d, buffer, [.unreadable g.ssrc what], []⟩, g.passed) := by
              simp only [receive, hwindow, hdecode]
              rfl
            rw [hg, hreceive, ← hg]
            exact .unread d e _ (hquiet.append (by simp [Quiet])) hstage fun _ => ⟨what, hdecode⟩
        | ok packet =>
          have hpacket := Buffer.packet?_eq_some.2 ⟨hsize, hdecode⟩
          cases hshort : (f.started k p).isShort packet.payload with
          | true =>
            have hreceive : g.receive k e d buffer = g.pass d buffer := by
              rw [hg] at hshort
              simp only [receive, hwindow, hdecode, hshort, if_true]
            rw [hg, hreceive, ← hg]
            exact .short d e packet _ hpass hstage hpacket hshort
          | false =>
            have hreceive : g.receive k e d buffer = g.process k e packet d buffer := by
              rw [hg] at hshort
              simp only [receive, hwindow, hdecode, hshort, Bool.false_eq_true, if_false]
            rw [hg, hreceive, ← hg]
            exact exit_process k p f buffer hquiet ⟨hstage, hpacket, hshort⟩
      · have hwindow : buffer.window? d.length = none := by rw [Buffer.window?, if_neg hsize]
        have hreceive : g.receive k e d buffer = g.pass d buffer := by
          simp only [receive, hwindow]
        rw [hg, hreceive, ← hg]
        exact .unread d e _ hpass hstage fun h => absurd h hsize
    · have hstage : ∀ e, (f.started k p).stage ≠ .active e := fun e he => hactive ⟨e, he⟩
      rw [read_of_degraded k p hstage]
      exact .degraded d _ (hquiet.append (by simp [Quiet])) hstage

/-! ### A packet for the engine -/

/-- **A packet for the engine** goes on processed, if that fits into the buffer. Otherwise the filter falls
back; and if bytes had waited and the beginning of the backlog can be sent, the rest of it waits. -/
theorem Exit.of_takes {k : Backend pool engine} {p : pool} {f g : Filter engine} {buffer : Buffer}
    {d : Delivery} {r : Reading} {e : engine} {packet : Packet} (h : f.Exit k p buffer (.ok d) r g)
    (htakes : (f.started k p).Takes e d buffer packet) :
    (∃ data, Packet.encode { packet with
          payload := ((f.started k p).suppress k e packet.payload).payload } = .ok data ∧
        data.length ≤ buffer.size ∧ r.outcome = .delivered { d with length := data.length } ∧
        r.buffer = buffer.overwrite data ∧
        g = { (f.started k p).analysed k e packet.payload with
          counters := ((f.started k p).analysed k e packet.payload).counters.packetSuppressed }) ∨
      (Unfit { packet with payload := ((f.started k p).suppress k e packet.payload).payload } buffer ∧
        r.analyses = ((f.started k p).suppress k e packet.payload).analyses ∧
        ∃ waiting, g = ((f.started k p).analysed k e packet.payload).fallenBack waiting ∧
          (f.accumulator.waiting ≠ [] →
            ¬ Unfit { packet with
              payload := (f.backlog packet).take (buffer.size - packet.header.size) } buffer →
            waiting = (f.backlog packet).drop (buffer.size - packet.header.size))) := by
  -- the engine and the packet are the ones at hand
  have hsame : ∀ {e' packet'}, (f.started k p).Takes e' d buffer packet' →
      e' = e ∧ packet' = packet := fun h' =>
    ⟨h'.engine_unique htakes.stage, h'.unique htakes.decoded⟩
  cases h with
  | degraded _ notices hquiet hidle => exact absurd htakes.stage (hidle e)
  | overrun _ e' notices hquiet hstage hsize hfault =>
    exact absurd hfault (Buffer.decode_ne_error_of_packet? htakes.decoded _)
  | unread _ e' notices hquiet hstage hfault =>
    exact absurd hfault (Buffer.not_unread_of_packet? htakes.decoded)
  | short _ e' packet' notices hquiet hstage hpacket hshort =>
    obtain rfl := htakes.unique hpacket
    exact absurd (hshort.symm.trans htakes.long) (by decide)
  | suppressed _ e' packet' data notices hquiet htakes' hdata hfits =>
    obtain ⟨rfl, rfl⟩ := hsame htakes'
    exact .inl ⟨data, hdata, hfits, rfl, rfl, rfl⟩
  | gaveUp _ e' packet' notices hquiet htakes' hunfit hwaiting =>
    obtain ⟨rfl, rfl⟩ := hsame htakes'
    exact .inr ⟨hunfit, rfl, _, rfl, fun hwaits => absurd hwaiting hwaits⟩
  | released _ e' packet' data notices hquiet htakes' hunfit hwaiting hdata hfits =>
    obtain ⟨rfl, rfl⟩ := hsame htakes'
    exact .inr ⟨hunfit, rfl, _, rfl, fun _ _ => rfl⟩
  | dropped _ e' packet' notices hdrop htakes' hunfit hwaiting hnone =>
    obtain ⟨rfl, rfl⟩ := hsame htakes'
    exact .inr ⟨hunfit, rfl, _, rfl, fun _ hsend => absurd hnone hsend⟩

end Filter

end NoiseFilter
