import NoiseFilter.Proofs.Stream.Backlog

/-!
# How often a byte is analysed

Number the bytes of all payloads in order of arrival. The bytes that wait are the last ones that have
arrived, and the frames of a read begin with the first of them; so the bytes that a read puts to the
engine have consecutive numbers (`Filter.Turn.numbers`), and those of a run are the numbers of its reads
one after the other (`Filter.numbers`).

They go up from read to read, and the engine sees no byte twice, with one exception. The exit `released`
gives the processed packet up after its frames went through the engine, and lets the part of the
unprocessed payload wait that did not fit. Where that part reaches into the frames, the bytes there come
to the engine **again**. `Filter.Turn.CarriesAgain` says which reads do that: something waited, nothing
was dropped, and the frames alone are too large for the packet.

* Between two analyses of one byte there is such a read, and only bytes that still wait after it come
  again (`Filter.run_numbers`).
* Where no incomplete frame waits there is no such read, and every byte is analysed once at most.
-/

namespace NoiseFilter

open Rtp

namespace Filter

variable {pool engine : Type}

namespace Turn

/-- The bytes that waited. -/
def waitingBefore : Turn engine → Bytes
  | read before .. => before.accumulator.waiting
  | drain before _ => before.accumulator.waiting

/-- **The numbers of the bytes that were put to the engine**, if `count` bytes had arrived before: they
begin with the first byte that waited. -/
def numbers (count : Nat) (t : Turn engine) : List Nat :=
  List.range' (count - t.waitingBefore.length) (frameBytes * t.analyses.length)

/-- The bytes that were put to the engine. -/
def analysed (t : Turn engine) : Bytes := WireFrame.join (t.analyses.map Analysis.frame)

/-- **A read after which analysed bytes wait again**: something waited and was not dropped, and the
frames of the packet are larger than what the buffer has room for. -/
def CarriesAgain : Turn engine → Prop
  | read before (.ok d) buffer reading =>
    before.accumulator.waiting ≠ [] ∧ reading.notices.any Notice.isLoss = false ∧
      ∃ packet, buffer.packet? d.length = some packet ∧
        buffer.size < packet.header.size + frameBytes * reading.analyses.length
  | _ => False

end Turn

/-- **The numbers of all bytes that were put to the engine**, in order, if `count` bytes had arrived
before. -/
def numbers : Nat → List (Turn engine) → List Nat
  | _, [] => []
  | count, t :: turns => t.numbers count ++ numbers (count + t.arrived.length) turns

/-! ### One turn -/

/-- **What one turn does to the numbering**, `waiting` before it and `waiting'` after it. -/
structure Numbered (waiting : Bytes) (t : Turn engine) (waiting' : Bytes) : Prop where
  suffix : waiting' <:+ waiting ++ t.arrived
  frames : t.analysed <+: waiting ++ t.arrived
  again : t.CarriesAgain ↔ waiting.length + t.arrived.length <
    frameBytes * t.analyses.length + waiting'.length

namespace Numbered

/-- A turn at which nothing is analysed. -/
theorem of_idle {waiting waiting' : Bytes} {t : Turn engine} (hanalyses : t.analyses = [])
    (hsuffix : waiting' <:+ waiting ++ t.arrived) (hagain : ¬ t.CarriesAgain) :
    Numbered waiting t waiting' := by
  refine ⟨hsuffix, ?_, iff_of_false hagain ?_⟩
  · rw [Turn.analysed, hanalyses]
    exact List.nil_prefix
  · have hlen := hsuffix.length_le
    rw [List.length_append] at hlen
    rw [hanalyses, List.length_nil]
    omega

/-- The analysed bytes are as many as their frames say. -/
theorem length_analysed (t : Turn engine) : t.analysed.length = frameBytes * t.analyses.length := by
  rw [Turn.analysed, WireFrame.length_join, List.length_map]

theorem length_le {waiting waiting' : Bytes} {t : Turn engine} (h : Numbered waiting t waiting') :
    frameBytes * t.analyses.length ≤ waiting.length + t.arrived.length ∧
      waiting'.length ≤ waiting.length + t.arrived.length := by
  have hframes := h.frames.length_le
  have hsuffix := h.suffix.length_le
  rw [length_analysed, List.length_append] at hframes
  rw [List.length_append] at hsuffix
  exact ⟨hframes, hsuffix⟩

end Numbered

section Suppress

variable (k : Backend pool engine) (f : Filter engine) (e : engine) (payload : Bytes)

/-- The frames of a payload begin with what waited. -/
theorem frames_suppress_start :
    WireFrame.join ((f.suppress k e payload).analyses.map Analysis.frame) <+:
      f.accumulator.waiting ++ payload := by
  rw [analyses_suppress, Backend.map_frame_analyse, ← f.accumulator.join_feed payload]
  exact List.prefix_append _ _

/-- What waits behind a payload is the end of it, with what waited in front. -/
theorem waiting_suppress_suffix :
    (f.suppress k e payload).accumulator.waiting <:+ f.accumulator.waiting ++ payload := by
  rcases f.suppress_cases k e payload with ⟨-, -, hwaiting⟩ | ⟨-, -, hwaiting⟩
  · rw [hwaiting, ← f.accumulator.join_feed payload]
    exact List.suffix_append _ _
  · rw [hwaiting]
    exact List.nil_suffix

/-- The frames are sent on. -/
theorem length_frames_le : frameBytes * (f.suppress k e payload).analyses.length ≤
    (f.suppress k e payload).payload.length := by
  have hprocessed : (f.processed k e payload).length =
      frameBytes * (f.suppress k e payload).analyses.length := by
    rw [processed, WireFrame.length_join, List.length_map]
  rcases f.suppress_cases k e payload with ⟨-, hpayload, -⟩ | ⟨-, hpayload, -⟩
  · rw [hpayload]
    omega
  · rw [hpayload, List.length_append]
    omega

end Suppress

/-- Nothing is carried again by a read before which nothing waited, or of what is no packet. -/
theorem Turn.not_carriesAgain {f : Filter engine} {arrival : Arrival} {buffer : Buffer} {r : Reading}
    (h : f.accumulator.waiting = [] ∨ ∀ d, arrival = .ok d → buffer.packet? d.length = none) :
    ¬ (Turn.read f arrival buffer r).CarriesAgain := by
  intro hagain
  cases arrival with
  | error why => exact hagain
  | ok d =>
    obtain ⟨hwaits, -, packet, hpacket, -⟩ := hagain
    rcases h with hempty | hnone
    · exact hwaits hempty
    · rw [hnone d rfl] at hpacket
      cases hpacket

/-- A read that analyses nothing, and after which all waits that waited, if there was nothing or nothing
arrived. -/
theorem Numbered.of_kept (k : Backend pool engine) (p : pool) {f : Filter engine} {arrival : Arrival}
    {buffer : Buffer} {r : Reading} (hanalyses : r.analyses = [])
    (h : f.accumulator.waiting = [] ∨ ∀ d, arrival = .ok d → buffer.packet? d.length = none) :
    Numbered f.accumulator.waiting (.read f arrival buffer r)
      (f.started k p).accumulator.waiting := by
  rw [started_accumulator]
  refine .of_idle hanalyses ?_ (Turn.not_carriesAgain h)
  rcases h with hempty | hnone
  · rw [hempty]
    exact List.nil_suffix
  · have harrived : (Turn.read f arrival buffer r).arrived = [] := by
      cases arrival with
      | error why => rfl
      | ok d => exact Buffer.payload_of_none (hnone d rfl)
    refine ⟨[], ?_⟩
    rw [harrived, List.append_nil, List.nil_append]

/-- **A packet for the engine** arrives with its payload, and its frames begin with what waited. -/
theorem Takes.frames {k : Backend pool engine} {p : pool} {f : Filter engine} {e : engine}
    {d : Delivery} {buffer : Buffer} {packet : Packet} (h : (f.started k p).Takes e d buffer packet) :
    buffer.payload d.length = packet.payload ∧
      WireFrame.join (((f.started k p).suppress k e packet.payload).analyses.map Analysis.frame) <+:
        f.accumulator.waiting ++ buffer.payload d.length ∧
      frameBytes * ((f.started k p).suppress k e packet.payload).analyses.length ≤
        f.accumulator.waiting.length + packet.payload.length := by
  have hpayload := Buffer.payload_of_packet? h.decoded
  have hstart := (f.started k p).frames_suppress_start k e packet.payload
  have hlen := hstart.length_le
  rw [WireFrame.length_join, List.length_map, List.length_append, started_accumulator] at hlen
  rw [started_accumulator] at hstart
  rw [hpayload]
  exact ⟨rfl, hstart, hlen⟩

/-- **Every exit keeps the numbering.** -/
theorem Exit.numbered {k : Backend pool engine} {p : pool} {f g : Filter engine} {buffer : Buffer}
    {arrival : Arrival} {r : Reading} (h : f.Exit k p buffer arrival r g) (hf : f.Coherent) :
    Numbered f.accumulator.waiting (.read f arrival buffer r) g.accumulator.waiting := by
  have hstarted := congrArg Accumulator.waiting (started_accumulator k p f)
  cases h with
  -- nothing is analysed
  | failed why => exact .of_idle rfl ⟨[], (List.append_nil _).symm⟩ id
  | degraded d notices hquiet hstage => exact .of_kept k p rfl (.inl (hf.waiting_of_degraded hstage))
  | overrun d e notices hquiet hstage hsize hfault =>
    refine .of_kept k p rfl (.inr fun d' hd => ?_)
    cases hd
    exact Buffer.packet?_eq_none fun _ => ⟨_, hfault⟩
  | unread d e notices hquiet hstage hfault =>
    refine .of_kept k p rfl (.inr fun d' hd => ?_)
    cases hd
    refine Buffer.packet?_eq_none fun hsize => ?_
    obtain ⟨what, hmalformed⟩ := hfault hsize
    exact ⟨_, hmalformed⟩
  | short d e packet notices hquiet hstage hpacket hshort =>
    exact .of_kept k p rfl (.inl (hf.waiting_of_isShort hshort))
  -- the frames begin with what waited
  | suppressed d e packet data notices hquiet htakes hdata hfits =>
    have hsuffix := (f.started k p).waiting_suppress_suffix k e packet.payload
    have hsent := (f.started k p).length_frames_le k e packet.payload
    have hlen := (f.started k p).length_suppress k e packet.payload
    obtain ⟨hpayload, hframes, -⟩ := htakes.frames
    rw [hstarted] at hsuffix hlen
    rw [List.length_append] at hlen
    refine ⟨?_, hframes, ?_⟩
    · change _ <:+ f.accumulator.waiting ++ buffer.payload d.length
      rw [hpayload]
      exact hsuffix
    · refine iff_of_false ?_ ?_
      · rintro ⟨-, -, packet', hpacket', hlarge⟩
        obtain rfl := htakes.unique hpacket'
        rw [(Packet.of_encode hdata).2, Packet.size] at hfits
        dsimp only at hfits hlarge
        omega
      · change ¬ _ + (buffer.payload d.length).length <
          frameBytes * ((f.started k p).suppress k e packet.payload).analyses.length +
            ((f.started k p).suppress k e packet.payload).accumulator.waiting.length
        rw [hpayload]
        omega
  | gaveUp d e packet notices hquiet htakes hunfit hwaiting =>
    obtain ⟨hpayload, hframes, hcount⟩ := htakes.frames
    refine ⟨List.nil_suffix, hframes, iff_of_false (Turn.not_carriesAgain (.inl hwaiting)) ?_⟩
    change ¬ _ + (buffer.payload d.length).length < _ + 0
    rw [hpayload]
    exact Nat.not_lt.2 hcount
  | released d e packet data notices hquiet htakes hunfit hwaiting hdata hfits =>
    obtain ⟨hpayload, hframes, hcount⟩ := htakes.frames
    refine ⟨?_, hframes, ?_⟩
    · change (f.backlog packet).drop _ <:+ f.accumulator.waiting ++ buffer.payload d.length
      rw [hpayload]
      exact List.drop_suffix _ _
    · -- the packet went out with its header, and so the buffer has room for that
      have hroom : packet.header.size ≤ buffer.size := by
        rw [(Packet.of_encode hdata).2, Packet.size] at hfits
        dsimp only at hfits
        omega
      have hbacklog := f.length_backlog packet
      change _ ↔ _ + (buffer.payload d.length).length < _ + ((f.backlog packet).drop _).length
      rw [hpayload, List.length_drop]
      constructor
      · rintro ⟨-, -, packet', hpacket', hlarge⟩
        obtain rfl := htakes.unique hpacket'
        change _ < _ + frameBytes * ((f.started k p).suppress k e _).analyses.length at hlarge
        change _ < frameBytes * ((f.started k p).suppress k e _).analyses.length + _
        omega
      · intro hlarge
        change _ < frameBytes * ((f.started k p).suppress k e _).analyses.length + _ at hlarge
        refine ⟨hwaiting, isLoss_of_quiet hquiet, packet, htakes.decoded, ?_⟩
        change _ < _ + frameBytes * ((f.started k p).suppress k e _).analyses.length
        omega
  | dropped d e packet notices hdrop htakes hunfit hwaiting hnone =>
    obtain ⟨hpayload, hframes, hcount⟩ := htakes.frames
    refine ⟨List.nil_suffix, hframes, iff_of_false ?_ ?_⟩
    · rintro ⟨-, hquiet, -⟩
      exact absurd (List.any_eq_true.2 ⟨_, hdrop, rfl⟩) (by rw [hquiet]; exact Bool.false_ne_true)
    · change ¬ _ + (buffer.payload d.length).length < _ + 0
      rw [hpayload]
      exact Nat.not_lt.2 hcount

/-- **Only a fallback carries analysed bytes again.** -/
theorem Exit.not_carriesAgain {k : Backend pool engine} {p : pool} {f g : Filter engine}
    {buffer : Buffer} {arrival : Arrival} {r : Reading} (h : f.Exit k p buffer arrival r g)
    (hf : f.Coherent) (hnone : g.counters.fallbacks = f.counters.fallbacks) :
    ¬ (Turn.read f arrival buffer r).CarriesAgain := by
  have hnumbered := h.numbered hf
  have hlen := hnumbered.length_le.2
  rw [hnumbered.again, Nat.not_lt]
  cases h with
  | failed | degraded | overrun | unread | short => exact Nat.le_trans (Nat.le_of_eq (Nat.zero_add _)) hlen
  | suppressed d e packet data notices hquiet htakes =>
    -- the frames are sent on, and what waits is what is left
    have hsent := (f.started k p).length_frames_le k e packet.payload
    have hkept := (f.started k p).length_suppress k e packet.payload
    rw [List.length_append, started_accumulator] at hkept
    change frameBytes * ((f.started k p).suppress k e packet.payload).analyses.length +
      ((f.started k p).suppress k e packet.payload).accumulator.waiting.length ≤
        _ + (buffer.payload d.length).length
    rw [htakes.frames.1]
    omega
  | gaveUp d e packet => exact absurd hnone (f.fallbacks_fallenBack_ne k p e _ _)
  | released d e packet => exact absurd hnone (f.fallbacks_fallenBack_ne k p e _ _)
  | dropped d e packet => exact absurd hnone (f.fallbacks_fallenBack_ne k p e _ _)

/-- Every action keeps the numbering. -/
theorem numbered_act (k : Backend pool engine) (p : pool) {f : Filter engine} (hf : f.Coherent)
    (a : Action) :
    Numbered f.accumulator.waiting (f.act k p a).1 (f.act k p a).2.1.accumulator.waiting := by
  cases a with
  | read arrival buffer => exact (f.exit_read k p arrival buffer).numbered hf
  | drain => exact .of_idle rfl List.nil_suffix id

/-- What waits before a turn waits in the filter that it meets. -/
theorem waitingBefore_act (k : Backend pool engine) (p : pool) (f : Filter engine) (a : Action) :
    (f.act k p a).1.waitingBefore = f.accumulator.waiting := by
  cases a <;> rfl

/-! ### A run -/

theorem numbers_cons (count : Nat) (t : Turn engine) (turns : List (Turn engine)) :
    numbers count (t :: turns) = t.numbers count ++ numbers (count + t.arrived.length) turns := rfl

/-- Every byte that is put to the engine has a number. -/
theorem length_numbers (turns : List (Turn engine)) : ∀ count : Nat,
    (numbers count turns).length = frameBytes * (turns.flatMap Turn.analyses).length := by
  induction turns with
  | nil => exact fun count => rfl
  | cons t turns ih =>
    intro count
    rw [numbers_cons, List.length_append, ih, Turn.numbers, List.length_range', List.flatMap_cons,
      List.length_append, Nat.mul_add]

/-- The bytes of consecutive numbers. -/
theorem map_getElem?_range' (bytes : Bytes) {start count : Nat} (h : start + count ≤ bytes.length) :
    (List.range' start count).map (bytes[·]?) = ((bytes.drop start).take count).map some := by
  refine List.ext_getElem? fun i => ?_
  rw [List.getElem?_map, List.getElem?_map, List.getElem?_take, List.getElem?_drop]
  by_cases hi : i < count
  · have hsome : bytes[start + i]? = some bytes[start + i] := List.getElem?_eq_getElem (by omega)
    rw [List.getElem?_range' hi, if_pos hi, Nat.one_mul, Option.map_some, hsome, Option.map_some]
  · rw [if_neg hi, List.getElem?_eq_none (by rw [List.length_range']; omega)]
    rfl

/-- **What a run does to the numbering**, `past` being all that has arrived before it. -/
structure RunNumbered (past waiting : Bytes) (turns : List (Turn engine)) (waiting' : Bytes) :
    Prop where
  suffix : waiting' <:+ past ++ turns.flatMap Turn.arrived
  bytes : (numbers past.length turns).map ((past ++ turns.flatMap Turn.arrived)[·]?) =
    (turns.flatMap Turn.analysed).map some
  waits : ∀ x ∈ numbers past.length turns, past.length ≤ x + waiting.length
  once : (∀ t ∈ turns.dropLast, ¬ t.CarriesAgain) → (numbers past.length turns).Pairwise (· < ·)

/-- **Every run keeps the numbering**, from any filter that can be reached. -/
theorem Coherent.runNumbered (k : Backend pool engine) (actions : List Action) :
    ∀ (p : pool) {f : Filter engine} {past : Bytes}, f.Coherent → f.accumulator.waiting <:+ past →
      RunNumbered past f.accumulator.waiting (f.run k p actions).1
        (f.run k p actions).2.1.accumulator.waiting := by
  induction actions with
  | nil =>
    intro p f past _ hsuffix
    refine ⟨?_, rfl, fun x hx => absurd hx List.not_mem_nil, fun _ => List.Pairwise.nil⟩
    rw [run, List.flatMap_nil, List.append_nil]
    exact hsuffix
  | cons a actions ih =>
    intro p f past hf hsuffix
    have hone := numbered_act k p hf a
    have hbefore := waitingBefore_act k p f a
    obtain ⟨hframes, hwaiting⟩ := hone.length_le
    have hle := hsuffix.length_le
    rw [run_cons]
    obtain ⟨t, ht⟩ : ∃ t, (f.act k p a).1 = t := ⟨_, rfl⟩
    obtain ⟨g, hg⟩ : ∃ g, (f.act k p a).2.1 = g := ⟨_, rfl⟩
    rw [ht, hg] at hone hwaiting
    rw [ht] at hbefore hframes
    -- what waits after the turn is the end of what has arrived until then
    have hsuffix' : g.accumulator.waiting <:+ past ++ t.arrived := by
      refine hone.suffix.trans ?_
      obtain ⟨front, rfl⟩ := hsuffix
      rw [List.append_assoc]
      exact List.suffix_append _ _
    have hcoherent : g.Coherent := by
      rw [← hg]
      exact coherent_act k p f a hf
    obtain ⟨hrest, hbytes, hwaits, honce⟩ := ih (f.act k p a).2.2 hcoherent hsuffix'
    rw [ht, hg]
    obtain ⟨turns, hturns⟩ : ∃ ts, (g.run k (f.act k p a).2.2 actions).1 = ts := ⟨_, rfl⟩
    rw [hturns] at hrest hbytes hwaits honce ⊢
    rw [List.length_append] at hbytes hwaits honce
    rw [List.append_assoc, ← List.flatMap_cons] at hrest hbytes
    refine ⟨hrest, ?_, ?_, ?_⟩
    · -- the bytes of this turn begin where the waiting ones did
      have hcut : ((past ++ (t :: turns).flatMap Turn.arrived).drop
          (past.length - f.accumulator.waiting.length)).take (frameBytes * t.analyses.length) =
          t.analysed := by
        obtain ⟨front, rfl⟩ := hsuffix
        obtain ⟨rest, hrest⟩ := hone.frames
        rw [List.length_append, Nat.add_sub_cancel, List.append_assoc, List.drop_left,
          List.flatMap_cons, ← List.append_assoc, ← hrest, List.append_assoc,
          ← Numbered.length_analysed]
        exact List.take_left
      rw [numbers_cons, List.map_append, hbytes, Turn.numbers, hbefore, map_getElem?_range', hcut,
        List.flatMap_cons, List.map_append]
      rw [List.length_append, List.flatMap_cons, List.length_append]
      omega
    · intro x hx
      rw [numbers_cons, List.mem_append] at hx
      rcases hx with hx | hx
      · rw [Turn.numbers, hbefore, List.mem_range'_1] at hx
        omega
      · have hlater := hwaits x hx
        omega
    · intro hnone
      rw [numbers_cons, List.pairwise_append]
      refine ⟨List.pairwise_lt_range', ?_, ?_⟩
      · cases turns with
        | nil => exact List.Pairwise.nil
        | cons t' turns =>
          rw [List.dropLast_cons_cons] at hnone
          exact honce (List.forall_mem_cons.1 hnone).2
      · intro x hx y hy
        cases turns with
        | nil => exact absurd hy List.not_mem_nil
        | cons t' turns =>
          rw [List.dropLast_cons_cons] at hnone
          -- nothing is carried again here, and so what waits was not analysed
          have hagain := Nat.not_lt.1 (mt hone.again.2 (List.forall_mem_cons.1 hnone).1)
          have hlater := hwaits y hy
          rw [Turn.numbers, hbefore, List.mem_range'_1] at hx
          omega

/-- Nothing is carried again where no incomplete frame waits. -/
theorem Coherent.not_carriesAgain (k : Backend pool engine) (actions : List Action) :
    ∀ (p : pool) {f : Filter engine}, f.Coherent → f.settings.carryRemainder = false →
      ∀ t ∈ (f.run k p actions).1, ¬ t.CarriesAgain := by
  induction actions with
  | nil => exact fun p f _ _ t ht => absurd ht List.not_mem_nil
  | cons a actions ih =>
    intro p f hf hcarry
    rw [run_cons, List.forall_mem_cons]
    refine ⟨fun hagain => ?_, ih _ (coherent_act k p f a hf)
      ((congrArg Settings.carryRemainder (settings_act k p f a)).trans hcarry)⟩
    cases a with
    | read arrival buffer =>
      cases arrival with
      | error why => exact hagain
      | ok d => exact hagain.1 (hf.flushed hcarry)
    | drain => exact hagain

/-- Nor where nothing falls back. -/
theorem Coherent.not_carriesAgain_of_unfallen (k : Backend pool engine) (actions : List Action) :
    ∀ (p : pool) {f : Filter engine}, f.Coherent →
      (f.run k p actions).2.1.counters.fallbacks = f.counters.fallbacks →
      ∀ t ∈ (f.run k p actions).1, ¬ t.CarriesAgain := by
  induction actions with
  | nil => exact fun p f _ _ t ht => absurd ht List.not_mem_nil
  | cons a actions ih =>
    intro p f hf hnone
    obtain ⟨hfirst, hlater⟩ := fallbacks_of_run_cons k hnone
    rw [run_cons, List.forall_mem_cons]
    refine ⟨?_, ih _ (coherent_act k p f a hf) hlater⟩
    cases a with
    | read arrival buffer => exact (f.exit_read k p arrival buffer).not_carriesAgain hf hfirst
    | drain => exact id

/-- **How often a byte is analysed.** At any time in a run, with `before` done and `after` to come:

* the bytes that are put to the engine in `after` are those of their numbers;
* each of them waits or is still to arrive: what was sent on or dropped is never analysed again;
* their numbers go up, and so no byte is analysed twice, unless there is a turn before the last that
  carries analysed bytes again;
* there is none where no incomplete frame waits;
* a turn is one exactly if a byte that it has analysed waits after it;
* the frames that are counted are these bytes and no others.
-/
theorem run_numbers (k : Backend pool engine) (p : pool) (ssrc : UInt32) (settings : Settings)
    (earlier actions : List Action) {before after : List (Turn engine)} {f g : Filter engine}
    {q r : pool} (hbefore : (new ssrc settings).run k p earlier = (before, f, q))
    (hafter : f.run k q actions = (after, g, r)) :
    (numbers (before.flatMap Turn.arrived).length after).map
          (((before ++ after).flatMap Turn.arrived)[·]?) =
        (after.flatMap Turn.analysed).map some ∧
      (∀ x ∈ numbers (before.flatMap Turn.arrived).length after,
        (before.flatMap Turn.arrived).length ≤ x + f.accumulator.waiting.length) ∧
      ((∀ t ∈ after.dropLast, ¬ t.CarriesAgain) →
        (numbers (before.flatMap Turn.arrived).length after).Pairwise (· < ·)) ∧
      (settings.carryRemainder = false → ∀ t ∈ after, ¬ t.CarriesAgain) ∧
      (∀ t, after = [t] → (t.CarriesAgain ↔
        ∃ x ∈ t.numbers (before.flatMap Turn.arrived).length,
          ((before ++ after).flatMap Turn.arrived).length ≤ x + g.accumulator.waiting.length)) ∧
      frameBytes * g.counters.frames = frameBytes * f.counters.frames +
        (numbers (before.flatMap Turn.arrived).length after).length := by
  have hf : f.Coherent := by
    have hcoherent := coherent_run k p ssrc settings earlier
    rwa [hbefore] at hcoherent
  have hsettings : f.settings = settings := by
    have hsame := settings_run k p (new ssrc settings) earlier
    rwa [hbefore] at hsame
  have hsuffix : f.accumulator.waiting <:+ before.flatMap Turn.arrived := by
    have hrun := (coherent_new ssrc settings).runNumbered k earlier p (List.suffix_refl [])
    rw [hbefore] at hrun
    exact hrun.suffix
  have hrun := hf.runNumbered k actions q hsuffix
  have hcarries := hf.not_carriesAgain k actions q
  have hframes := frames_run k actions q f
  rw [hafter] at hrun hcarries hframes
  refine ⟨?_, hrun.waits, hrun.once, fun hcarry => hcarries (by rw [hsettings, hcarry]), ?_, ?_⟩
  · rw [List.flatMap_append]
    exact hrun.bytes
  · rintro t rfl
    obtain ⟨a, rfl⟩ : ∃ a, actions = [a] := by
      refine List.length_eq_one_iff.1 ?_
      rw [← length_run k actions q f, hafter]
      rfl
    have hone := numbered_act k q hf a
    have hwaiting := waitingBefore_act k q f a
    obtain ⟨ht, hg⟩ : (f.act k q a).1 = t ∧ (f.act k q a).2.1 = g := by
      cases hafter
      exact ⟨rfl, rfl⟩
    rw [ht, hg] at hone
    rw [ht] at hwaiting
    obtain ⟨hframes, hle⟩ := hone.length_le
    have hpast := hsuffix.length_le
    rw [hone.again, List.flatMap_append, List.length_append, List.flatMap_singleton]
    constructor
    · intro hagain
      refine ⟨(before.flatMap Turn.arrived).length + t.arrived.length -
        g.accumulator.waiting.length, ?_, by omega⟩
      rw [Turn.numbers, hwaiting, List.mem_range'_1]
      omega
    · rintro ⟨x, hx, hlate⟩
      rw [Turn.numbers, hwaiting, List.mem_range'_1] at hx
      omega
  · rw [hframes, length_numbers, Nat.mul_add]

/-! ### A byte that is analysed twice -/

/-- **A packet that fills its buffer**, with frames that are too large for it, leaves as much waiting as
there was, and its frames are analysed all the same. -/
theorem Exit.of_tight {k : Backend pool engine} {p : pool} {f g : Filter engine} {buffer : Buffer}
    {d : Delivery} {r : Reading} {e : engine} {packet : Packet} (h : f.Exit k p buffer (.ok d) r g)
    (htakes : (f.started k p).Takes e d buffer packet)
    (hspelled : packet.header.spell.length = packet.header.size)
    (hpadding : packet.header.padding = false)
    (htight : buffer.size = packet.header.size + packet.payload.length)
    (hwaits : f.accumulator.waiting ≠ [])
    (hlarge : packet.payload.length < frameBytes * ((f.backlog packet).length / frameBytes)) :
    r.analyses.length = (f.backlog packet).length / frameBytes ∧
      g.accumulator.waiting.length = f.accumulator.waiting.length ∧ ∃ e', g.stage = .active e' := by
  have hframes : ((f.started k p).suppress k e packet.payload).analyses.length =
      (f.backlog packet).length / frameBytes := by
    rw [analyses_suppress, Backend.length_analyse, (Accumulator.length_feed _ _).1,
      started_accumulator]
    rfl
  have hbacklog := f.length_backlog packet
  rcases h.of_takes htakes with ⟨data, hdata, hfits, -⟩ | ⟨-, hanalyses, waiting, rfl, hrest⟩
  · -- the frames alone are too large
    exfalso
    have hsent := (f.started k p).length_frames_le k e packet.payload
    rw [hframes] at hsent
    rw [(Packet.of_encode hdata).2, Packet.size_of_unpadded _ hpadding] at hfits
    omega
  · rw [hanalyses, hrest hwaits (not_unfit_take hspelled hpadding (by omega) _)]
    refine ⟨hframes, ?_, _, rfl⟩
    change ((f.backlog packet).drop _).length = _
    rw [List.length_drop]
    omega

/-- An engine that is always there and changes nothing. -/
def steady : Backend Nat Nat := Script.backend ⟨[], []⟩

/-- A packet of two frames less a byte, and two packets of one byte that fill their buffers. -/
def tightActions : List Action :=
  [(Incoming.plain 1 (Bytes.zeros 1919) 2000).action, (Incoming.plain 2 [7] 0).action,
    (Incoming.plain 3 [8] 0).action]

/-- Packets of two frames less a byte, with room for what waits in front of them. -/
def roomyArrivals : List Incoming :=
  [.plain 1 (Bytes.zeros 1919) 2000, .plain 2 (Bytes.zeros 1919) 2000, .plain 3 (Bytes.zeros 1919) 2000]

/-- The first of them leaves all of a frame but a byte waiting. -/
theorem act_of_first : ∃ t g q, (new 12345 carrying).act steady 0
      (Incoming.plain 1 (Bytes.zeros 1919) 2000).action = (t, g, q) ∧
    t.numbers 0 = List.range' 0 960 ∧ t.arrived.length = 1919 ∧
    g.Coherent ∧ (∃ e, g.stage = .active e) ∧ g.accumulator.waiting.length = 959 := by
  obtain ⟨i, hi⟩ : ∃ i, Incoming.plain 1 (Bytes.zeros 1919) 2000 = i := ⟨_, rfl⟩
  have hroomy : i.Roomy := by
    rw [← hi]
    exact Incoming.roomy_plain _ _ (by decide)
  have hpayload : i.payload.length = 1919 := by
    rw [← hi]
    exact Bytes.length_zeros _
  have hstage : ((new 12345 carrying).started steady 0).stage = .active 0 := rfl
  have hexit := (new 12345 carrying).exit_read steady 0 (.ok i.delivery) i.buffer
  have hfits : i.packet.header.size + ((new 12345 carrying : Filter Nat).backlog i.packet).length + 4 ≤
      i.buffer.size := by
    have hroom := hroomy.fits
    change _ + i.payload.length + 4 ≤ _
    rw [show frameBytes = 960 from rfl] at hroom
    omega
  have hnone := hexit.fallbacks_of_fits i.decoded hroomy.spelled hfits
  obtain ⟨-, hanalyses, hafter⟩ := act_of_handles (hexit.handles hstage i.wellFormed i.decoded hnone)
  have hwaits := hexit.waiting_of_fits hstage rfl i.decoded
    (show 960 ≤ i.payload.length by omega) hroomy.spelled hfits
  have hcount := (coherent_new 12345 carrying).length_analyses_handle steady 0 i.payload
  refine ⟨_, _, _, by rw [hi], ?_, ?_, coherent_act _ _ _ _ (coherent_new _ _), ?_, ?_⟩
  · rw [Turn.numbers, hanalyses, hcount, waitingBefore_act, hpayload]
    rfl
  · change (i.buffer.payload i.delivery.length).length = _
    rw [Buffer.payload_of_packet? i.decoded]
    exact hpayload
  · rw [hafter]
    exact ⟨_, rfl⟩
  · refine hwaits.trans ?_
    change i.payload.length % 960 = 959
    rw [hpayload]

/-- Of the first packets no byte is analysed twice where no incomplete frame waits. Of the others none is where
they do: 959 bytes wait behind the first one, and go to the engine once, with the next. -/
theorem increasing_of_tight_and_roomy :
    (numbers 0 ((new 12345 Settings.default).run steady 0 tightActions).1).Pairwise (· < ·) ∧
      ((new 12345 carrying).run steady 0
        ((roomyArrivals.take 1).map Incoming.action)).2.1.accumulator.waiting.length = 959 ∧
      (∀ t ∈ ((new 12345 carrying).run steady 0 (roomyArrivals.map Incoming.action)).1,
        ¬ t.CarriesAgain) ∧
      (numbers 0 ((new 12345 carrying).run steady 0 (roomyArrivals.map Incoming.action)).1).Pairwise
        (· < ·) := by
  have hroomy : ∀ i ∈ roomyArrivals, i.Roomy := by
    simp only [roomyArrivals, List.forall_mem_cons, List.not_mem_nil, false_implies, implies_true, and_true]
    exact ⟨Incoming.roomy_plain _ _ (by decide), Incoming.roomy_plain _ _ (by decide),
      Incoming.roomy_plain _ _ (by decide)⟩
  have hunfallen := fallbacks_run_of_roomy steady roomyArrivals 0 (f := new 12345 carrying) hroomy rfl
    (by decide)
  have hnone := (coherent_new 12345 carrying).not_carriesAgain_of_unfallen steady _ 0 hunfallen
  refine ⟨?_, ?_, hnone, ?_⟩
  · rcases hrun : (new 12345 Settings.default).run steady 0 tightActions with ⟨turns, g, r⟩
    obtain ⟨-, -, honce, hnone, -, -⟩ :=
      run_numbers steady 0 12345 Settings.default [] tightActions rfl hrun
    exact honce fun t ht => hnone rfl t ((List.dropLast_sublist _).subset ht)
  · obtain ⟨t, g, q, hact, -, -, -, -, hwaiting⟩ := act_of_first
    rw [roomyArrivals, List.take_succ_cons, List.map_cons, run_cons, hact]
    exact hwaiting
  · rcases hrun : (new 12345 carrying).run steady 0 (roomyArrivals.map Incoming.action) with ⟨turns, g, r⟩
    rw [hrun] at hnone
    obtain ⟨-, -, honce, -⟩ := run_numbers steady 0 12345 carrying [] _ rfl hrun
    exact honce fun t ht => hnone t ((List.dropLast_sublist _).subset ht)

/-- Each of the others does so too, and the waiting bytes have been analysed with its own. -/
theorem act_of_tight {f : Filter Nat} (hf : f.Coherent) {e : Nat} (hstage : f.stage = .active e)
    (hwaiting : f.accumulator.waiting.length = 959) (q : Nat) (sequence : UInt16) (byte : UInt8) :
    ∃ t g q', f.act steady q (Incoming.plain sequence [byte] 0).action = (t, g, q') ∧
      (∀ count, t.numbers count = List.range' (count - 959) 960) ∧ t.arrived.length = 1 ∧
      g.Coherent ∧ (∃ e', g.stage = .active e') ∧ g.accumulator.waiting.length = 959 := by
  obtain ⟨i, hi⟩ : ∃ i, Incoming.plain sequence [byte] 0 = i := ⟨_, rfl⟩
  have hpayload : i.packet.payload = [byte] := by rw [← hi]; rfl
  have hheader : i.packet.header = Incoming.plainHeader sequence := by rw [← hi]; rfl
  have hsize : i.buffer.size = 13 := by
    rw [← hi, Incoming.size_buffer_plain]
    rfl
  have hbacklog : (f.backlog i.packet).length = 960 := by
    rw [backlog, List.length_append, hwaiting, hpayload]
    rfl
  have hexit := f.exit_read steady q (.ok i.delivery) i.buffer
  have hstage' : (f.started steady q).stage = .active e := by
    rw [started_of_active steady q hstage, hstage]
  have hwaits : f.accumulator.waiting ≠ [] := fun hempty => by
    rw [hempty] at hwaiting
    cases hwaiting
  obtain ⟨hanalyses, hkept, hstage''⟩ := hexit.of_tight
    ⟨hstage', i.decoded, hf.isShort_eq_false hwaits⟩ (by rw [hheader]; rfl) (by rw [hheader]; rfl)
    (by rw [hsize, hheader, hpayload]; rfl) hwaits
    (by rw [hbacklog, hpayload]; exact show 1 < 960 by decide)
  refine ⟨_, _, _, by rw [hi], fun count => ?_, ?_, coherent_act steady q f i.action hf, hstage'',
    hkept.trans hwaiting⟩
  · have hlen : (f.act steady q i.action).1.analyses.length = 1 := by
      refine hanalyses.trans ?_
      rw [hbacklog]
      rfl
    rw [Turn.numbers, hlen, waitingBefore_act, hwaiting]
    rfl
  · change (i.buffer.payload i.delivery.length).length = _
    rw [Buffer.payload_of_packet? i.decoded, hpayload]
    rfl

/-- **Carried again, bytes are analysed twice**: the engine has had three frames of a stream of two
frames and a byte. -/
theorem not_increasing_of_tight :
    ¬ (numbers 0 ((new 12345 carrying).run steady 0 tightActions).1).Pairwise (· < ·) ∧
      (((new 12345 carrying).run steady 0 tightActions).1.flatMap Turn.arrived).length <
        frameBytes * ((new 12345 carrying).run steady 0 tightActions).2.1.counters.frames := by
  obtain ⟨t, f, q, hact, hnumbers, harrived, hf, ⟨e, hstage⟩, hwaiting⟩ := act_of_first
  obtain ⟨t', f', q', hact', hnumbers', harrived', hf', ⟨e', hstage'⟩, hwaiting'⟩ :=
    act_of_tight hf hstage hwaiting q 2 7
  obtain ⟨t'', f'', q'', hact'', hnumbers'', harrived'', -⟩ :=
    act_of_tight hf' hstage' hwaiting' q' 3 8
  have hrun : (new 12345 carrying).run steady 0 tightActions = ([t, t', t''], f'', q'') := by
    rw [tightActions, run_cons, hact, run_cons, hact', run_cons, hact'']
    rfl
  have hall : numbers 0 [t, t', t''] =
      List.range' 0 960 ++ (List.range' 960 960 ++ (List.range' 961 960 ++ [])) := by
    rw [numbers_cons, numbers_cons, numbers_cons, hnumbers, hnumbers', hnumbers'', harrived, harrived']
    rfl
  have hframes := frames_run steady tightActions 0 (new 12345 carrying)
  rw [hrun] at hframes
  have hcounted := length_numbers [t, t', t''] 0
  rw [hall] at hcounted
  rw [hrun, hall]
  constructor
  · -- the byte of number 961 is in the second frame and in the third
    intro hincreasing
    rw [List.pairwise_append] at hincreasing
    obtain ⟨-, hincreasing, -⟩ := hincreasing
    rw [List.pairwise_append] at hincreasing
    refine Nat.lt_irrefl 961 (hincreasing.2.2 961 ?_ 961 ?_)
    · exact List.mem_range'_1.2 ⟨by omega, by omega⟩
    · exact List.mem_append_left _ (List.mem_range'_1.2 ⟨by omega, by omega⟩)
  · simp only [List.length_append, List.length_range', List.length_nil] at hcounted
    rw [hframes, Nat.mul_add, ← hcounted]
    simp only [List.flatMap_cons, List.flatMap_nil, List.length_append, List.length_nil, harrived,
      harrived', harrived'']
    omega

end Filter

end NoiseFilter
