import Mathlib.Data.List.Forall2
import NoiseFilter.Engine.Network
import NoiseFilter.Proofs.Stream.Ledger
import NoiseFilter.Proofs.Stream.Lifecycle
import NoiseFilter.Proofs.Stream.Splitting

/-!
# What the engine has no say in

An engine decides how frames sound. It does not decide what becomes of a packet: how long it is, whether
it falls back, what waits behind it, and which bytes stand around its frames are the same for every
engine. So two runs over the same arrivals go side by side, whatever their engines answer
(`Filter.run_parallel`).

A read without its engine is its **course**, `Filter.course`: a function of what waits, of the size of the
buffer and of the bytes that arrived. Every read follows it (`Filter.Exit.follows`). The one place where
an engine could have got in is the size of the packet that is written, on which it depends whether the
packet falls back. But a frame has its bytes whatever its samples are, and so the **draft** of the packet,
with the frames as they arrived, is as large as what will be written.
-/

namespace NoiseFilter

open Rtp

variable {pool pool' engine engine' : Type}

/-! ### Around the frames -/

/-- **What is written at the start of a buffer**: bytes, or bytes around the frames that the engine had. -/
inductive Layout
  | plain (bytes : Bytes)
  | framed (front back : Bytes)

/-- The bytes written, with the frames in their place. -/
def Layout.fill : Layout → List WireFrame → Bytes
  | plain bytes, _ => bytes
  | framed front back, frames => front ++ WireFrame.join frames ++ back

/-- Writing nothing changes nothing. -/
theorem Buffer.overwrite_nil (b : Buffer) : b.overwrite [] = b := by
  rw [overwrite, List.length_nil, Nat.zero_sub]
  rfl

namespace Filter

/-! ### Courses -/

/-- **A read without its engine**: how it ends, what it writes, the frames that go to the engine, what
waits afterwards, and how it is counted. -/
structure Course where
  outcome : Outcome
  layout : Layout
  frames : List WireFrame
  waiting : Bytes
  fate : Fate

/-- The frames that a payload completes. -/
def completed (waiting : Bytes) (packet : Packet) : List WireFrame :=
  (Accumulator.cut (waiting ++ packet.payload)).1

/-- **What goes out raw behind the frames of a payload, and what waits.** -/
def parting (carry : Bool) (waiting : Bytes) (packet : Packet) : Bytes × Bytes :=
  let stream := waiting ++ packet.payload
  if carry && decide (frameBytes ≤ stream.length) then ([], (Accumulator.cut stream).2)
  else ((Accumulator.cut stream).2, [])

/-- **The draft of a packet**: as it would be written if the engine did nothing. -/
def draft (carry : Bool) (waiting : Bytes) (packet : Packet) : Packet :=
  { packet with
    payload := WireFrame.join (completed waiting packet) ++ (parting carry waiting packet).1 }

/-- The packet in which waiting bytes are released. -/
def makeshift (waiting : Bytes) (size : Nat) (packet : Packet) : Packet :=
  { packet with payload := (waiting ++ packet.payload).take (size - packet.header.size) }

namespace Course

/-- The packet goes on as it arrived. -/
def pass (d : Delivery) (frames : List WireFrame) (waiting : Bytes) (fate : Fate) : Course :=
  ⟨.delivered d, .plain [], frames, waiting, fate⟩

/-- A packet that falls back: what waited goes out in front of it, if anything did and that fits. -/
def fallBack (waiting : Bytes) (size : Nat) (d : Delivery) (packet : Packet) : Course :=
  if waiting ≠ [] ∧ (makeshift waiting size packet).Fits size then
    { outcome := .delivered { d with length := (makeshift waiting size packet).size }
      layout := .plain (makeshift waiting size packet).spell
      frames := completed waiting packet
      waiting := (waiting ++ packet.payload).drop (size - packet.header.size)
      fate := .fellBack }
  else pass d (completed waiting packet) [] .fellBack

/-- A packet for the engine. -/
def take (carry : Bool) (waiting : Bytes) (size : Nat) (d : Delivery) (packet : Packet) : Course :=
  if (draft carry waiting packet).Fits size then
    { outcome := .delivered { d with length := (draft carry waiting packet).size }
      layout := .framed packet.header.spell
        ((parting carry waiting packet).1 ++ (draft carry waiting packet).spellPadding)
      frames := completed waiting packet
      waiting := (parting carry waiting packet).2
      fate := .suppressed }
  else fallBack waiting size d packet

end Course

/-- **The course of a read**, where `waiting` waits, in a buffer of `size` bytes of which `window` is what
arrived. -/
def course (carry : Bool) (waiting : Bytes) (size : Nat) (d : Delivery) (window : Option Bytes) :
    Course :=
  match window with
  | none => .pass d [] waiting .passed
  | some bytes =>
    match Packet.decode bytes with
    | .error .overrun => ⟨.aborted, .plain [], [], waiting, .unanswered⟩
    | .error (.malformed _) => .pass d [] waiting .passed
    | .ok packet =>
      if packet.payload.length < frameBytes && (!carry || waiting.isEmpty) then
        .pass d [] waiting .passed
      else .take carry waiting size d packet

/-- **A read shows a course**: it ends as the course does, the frames of the course went to the engine, and
their answers stand in the buffer where the course has its frames. -/
structure Course.Shown (c : Course) (buffer : Buffer) (r : Reading) : Prop where
  outcome : r.outcome = c.outcome
  buffer : r.buffer = buffer.overwrite (c.layout.fill (r.analyses.map Analysis.output))
  frames : r.analyses.map Analysis.frame = c.frames

/-- **A read follows a course**: it shows it and leaves what the course says, and what the engine said is
nowhere else but in the counters of outcomes. -/
structure Follows (c : Course) (f : Filter engine) (buffer : Buffer) (r : Reading)
    (g : Filter engine) : Prop where
  shown : c.Shown buffer r
  waiting : g.accumulator.waiting = c.waiting
  entries : ∀ i, g.counters.get i =
    f.counters.get i + (r.analyses.map Analysis.counter ++ c.fate.entries).count i

/-- The course of a delivery to a filter. -/
def courseOf (f : Filter engine) (d : Delivery) (buffer : Buffer) : Course :=
  course f.settings.carryRemainder f.accumulator.waiting buffer.size d (buffer.window? d.length)

section Course

variable {k : Backend pool engine} {p : pool} {f g : Filter engine} {buffer : Buffer} {d : Delivery}
  {r : Reading}

/-- The course where nothing can be read. -/
theorem course_of_unread {carry : Bool} {waiting : Bytes} (h : d.length ≤ buffer.size →
    ∃ what, Packet.decode (buffer.toBytes.take d.length) = .error (.malformed what)) :
    course carry waiting buffer.size d (buffer.window? d.length) = .pass d [] waiting .passed := by
  rcases Nat.lt_or_ge buffer.size d.length with hlarge | hsize
  · rw [Buffer.window?, if_neg (Nat.not_le.2 hlarge), course]
  · obtain ⟨what, hwhat⟩ := h hsize
    rw [Buffer.window?_eq_some.2 ⟨hsize, rfl⟩, course]
    simp only [hwhat]

/-- The course of a packet. -/
theorem course_of_packet {carry : Bool} {waiting : Bytes} {packet : Packet}
    (h : buffer.packet? d.length = some packet) :
    course carry waiting buffer.size d (buffer.window? d.length) =
      if packet.payload.length < frameBytes && (!carry || waiting.isEmpty) then
        .pass d [] waiting .passed
      else .take carry waiting buffer.size d packet := by
  obtain ⟨hsize, hdecode⟩ := Buffer.packet?_eq_some.1 h
  rw [Buffer.window?_eq_some.2 ⟨hsize, rfl⟩, course]
  simp only [hdecode]

/-- A packet for the engine takes the course of one. -/
theorem course_of_takes {e : engine} {packet : Packet}
    (h : (f.started k p).Takes e d buffer packet) :
    f.courseOf d buffer =
      .take f.settings.carryRemainder f.accumulator.waiting buffer.size d packet := by
  have hlong := h.long
  rw [isShort, started_settings, started_accumulator] at hlong
  rw [courseOf, course_of_packet h.decoded, hlong]
  exact if_neg Bool.false_ne_true

/-! ### What a packet is to the engine -/

variable (k p f) (e : engine) (packet : Packet)

/-- The frames put to the engine are those completed. -/
theorem frames_suppress :
    ((f.started k p).suppress k e packet.payload).analyses.map Analysis.frame =
      completed f.accumulator.waiting packet := by
  rw [analyses_suppress, k.map_frame_analyse, started_accumulator]
  rfl

/-- **What the engine has answered is sent before the rest**, and what waits is no answer. -/
theorem suppress_parting :
    ((f.started k p).suppress k e packet.payload).payload =
        WireFrame.join (((f.started k p).suppress k e packet.payload).analyses.map Analysis.output) ++
          (parting f.settings.carryRemainder f.accumulator.waiting packet).1 ∧
      ((f.started k p).suppress k e packet.payload).accumulator.waiting =
        (parting f.settings.carryRemainder f.accumulator.waiting packet).2 := by
  obtain ⟨h, hh⟩ : ∃ h, f.started k p = h := ⟨_, rfl⟩
  have hcarry : f.settings.carryRemainder = h.settings.carryRemainder := by
    rw [← hh, started_settings]
  have hwaiting : f.accumulator.waiting = h.accumulator.waiting := by rw [← hh, started_accumulator]
  rw [hh, hcarry, hwaiting, parting]
  rcases h.suppress_cases k e packet.payload with
    ⟨⟨hwaits, hframe⟩, hpayload, hrest⟩ | ⟨hflushes, hpayload, hrest⟩
  · rw [hpayload, hrest, hwaits, decide_eq_true hframe]
    exact ⟨(List.append_nil _).symm, rfl⟩
  · have hcond : (h.settings.carryRemainder &&
        decide (frameBytes ≤ (h.accumulator.waiting ++ packet.payload).length)) = false := by
      rcases hflushes with hcarry | hshort
      · rw [hcarry, Bool.false_and]
      · rw [decide_eq_false (Nat.not_le.2 hshort), Bool.and_false]
    rw [hpayload, hrest, hcond]
    exact ⟨rfl, rfl⟩

/-- **A processed payload is as long as its draft.** -/
theorem length_suppress_eq_draft :
    ((f.started k p).suppress k e packet.payload).payload.length =
      (draft f.settings.carryRemainder f.accumulator.waiting packet).payload.length := by
  rw [(suppress_parting k p f e packet).1, draft, List.length_append, List.length_append,
    WireFrame.length_join, WireFrame.length_join, List.length_map, ← frames_suppress k p f e packet,
    List.length_map]

/-- A processed packet is unfit if its draft does not fit. -/
theorem unfit_suppress_iff : Unfit { packet with
      payload := ((f.started k p).suppress k e packet.payload).payload } buffer ↔
    ¬ (draft f.settings.carryRemainder f.accumulator.waiting packet).Fits buffer.size := by
  rw [← Packet.not_fits_iff,
    Packet.fits_congr packet.header (length_suppress_eq_draft k p f e packet)]
  rfl

end Course

/-! ### Every read follows its course -/

section Follows

variable {k : Backend pool engine} {p : pool} {f g : Filter engine} {buffer : Buffer} {d : Delivery}
  {r : Reading} {notices : List Notice}

/-- What passes follows the course of passing. -/
theorem follows_pass : Follows (.pass d [] f.accumulator.waiting .passed) f buffer
    ⟨.delivered d, buffer, notices, []⟩ (f.started k p).passed :=
  ⟨⟨rfl, buffer.overwrite_nil.symm, rfl⟩, congrArg Accumulator.waiting (f.started_accumulator k p),
    fun i => f.get_passed k p i⟩

/-- What falls back as it arrived follows the course of that. -/
theorem follows_fallBack (e : engine) (packet : Packet) :
    Follows (.pass d (completed f.accumulator.waiting packet) [] .fellBack) f buffer
      ⟨.delivered d, buffer, notices, ((f.started k p).suppress k e packet.payload).analyses⟩
      (((f.started k p).analysed k e packet.payload).fallenBack []) :=
  ⟨⟨rfl, buffer.overwrite_nil.symm, frames_suppress k p f e packet⟩, rfl,
    fun i => f.get_fallenBack k p i e packet.payload []⟩

/-- **Every read follows its course**, if there is an engine to be had. -/
theorem Exit.follows (h : f.Exit k p buffer (.ok d) r g)
    (hactive : (f.started k p).stage.status = .active) :
    Follows (f.courseOf d buffer) f buffer r g := by
  cases h with
  | degraded _ notices hquiet hidle =>
    obtain ⟨e, he⟩ := Stage.status_eq_active.1 hactive
    exact absurd he (hidle e)
  | overrun _ e notices hquiet hstage hsize hfault =>
    rw [courseOf, Buffer.window?_eq_some.2 ⟨hsize, rfl⟩, course]
    simp only [hfault]
    refine ⟨⟨rfl, buffer.overwrite_nil.symm, rfl⟩, ?_, fun i => ?_⟩
    · rw [started_accumulator]
    · rw [started_counters]
      rfl
  | unread _ e notices hquiet hstage hfault =>
    rw [courseOf, course_of_unread hfault]
    exact follows_pass
  | short _ e packet notices hquiet hstage hpacket hshort =>
    rw [isShort, started_settings, started_accumulator] at hshort
    rw [courseOf, course_of_packet hpacket, if_pos hshort]
    exact follows_pass
  | suppressed _ e packet data notices hquiet htakes hdata hfits =>
    have hlength := length_suppress_eq_draft k p f e packet
    obtain ⟨hpayload, hwaiting⟩ := suppress_parting k p f e packet
    obtain ⟨hspell, hsize⟩ := Packet.of_encode hdata
    have hdraft : (draft f.settings.carryRemainder f.accumulator.waiting packet).Fits buffer.size :=
      (Packet.fits_congr packet.header hlength buffer.size).1 (Packet.fits_of_encode hdata hfits)
    rw [course_of_takes htakes, Course.take, if_pos hdraft]
    refine ⟨⟨?_, ?_, frames_suppress k p f e packet⟩, hwaiting,
      fun i => f.get_suppressed k p i e packet.payload⟩
    · rw [hsize, Packet.size_congr packet.header hlength]
      rfl
    · -- the header, the frames as the engine left them, and what comes after them
      rw [hspell, Packet.spell, Packet.spellPadding_congr packet.header hlength]
      dsimp only
      rw [hpayload, Layout.fill, List.append_assoc, List.append_assoc, List.append_assoc]
      rfl
  | gaveUp _ e packet notices hquiet htakes hunfit hwaiting =>
    rw [course_of_takes htakes, Course.take, if_neg ((unfit_suppress_iff k p f e packet).1 hunfit),
      Course.fallBack, if_neg fun hsome => hsome.1 hwaiting]
    exact follows_fallBack e packet
  | released _ e packet data notices hquiet htakes hunfit hwaiting hdata hfits =>
    obtain ⟨hspell, hsize⟩ := Packet.of_encode hdata
    rw [course_of_takes htakes, Course.take, if_neg ((unfit_suppress_iff k p f e packet).1 hunfit),
      Course.fallBack, if_pos ⟨hwaiting, Packet.fits_of_encode hdata hfits⟩]
    refine ⟨⟨?_, ?_, frames_suppress k p f e packet⟩, rfl,
      fun i => f.get_fallenBack k p i e packet.payload _⟩
    · rw [hsize]
      rfl
    · rw [hspell]
      rfl
  | dropped _ e packet notices hdrop htakes hunfit hwaiting hnone =>
    rw [course_of_takes htakes, Course.take, if_neg ((unfit_suppress_iff k p f e packet).1 hunfit),
      Course.fallBack, if_neg fun hsome => Packet.not_fits_iff.2 hnone hsome.2]
    exact follows_fallBack e packet

end Follows

/-! ### Two runs -/

/-- **Arrivals that are alike**: the transport says the same, and leaves the same bytes of the packet in
buffers of the same size. What else is in the buffers may differ. -/
inductive Action.Alike : Action → Action → Prop
  | read (arrival : Arrival) {buffer buffer' : Buffer} (size : buffer.size = buffer'.size)
      (window : ∀ d, arrival = .ok d → buffer.window? d.length = buffer'.window? d.length) :
      Alike (.read arrival buffer) (.read arrival buffer')
  | drain : Alike .drain .drain

theorem Action.Alike.refl (a : Action) : a.Alike a := by
  cases a with
  | read arrival buffer => exact .read arrival rfl fun _ _ => rfl
  | drain => exact .drain

/-- **Filters that differ in their engines alone**, and in what those have said: incomplete frames wait in
both or in neither, the same bytes wait, and the packets, the fallbacks and the sum of all frames are
counted alike. -/
structure Twins (f : Filter engine) (g : Filter engine') : Prop where
  carry : f.settings.carryRemainder = g.settings.carryRemainder
  waiting : f.accumulator.waiting = g.accumulator.waiting
  suppressed : f.counters.packetsSuppressed = g.counters.packetsSuppressed
  passed : f.counters.packetsPassed = g.counters.packetsPassed
  fallbacks : f.counters.fallbacks = g.counters.fallbacks
  frames : f.counters.frames = g.counters.frames

/-- **Turns side by side**: the filters were twins before, and

* both reads failed as the transport did, and touched nothing;
* or both show one course, that of either filter: they end alike, with the same length and attributes if a
  packet is handed on, the same frames went to the engines, and the same bytes were written into the two
  buffers but for those frames;
* or both drains gave the same bytes. -/
inductive Turn.Parallel : Turn engine → Turn engine' → Prop
  | failed {f : Filter engine} {f' : Filter engine'} (twins : f.Twins f') (why : TransportError)
      (buffer buffer' : Buffer) :
      Parallel (.read f (.error why) buffer ⟨.failed why, buffer, [], []⟩)
        (.read f' (.error why) buffer' ⟨.failed why, buffer', [], []⟩)
  | read {f : Filter engine} {f' : Filter engine'} (twins : f.Twins f') {d : Delivery}
      {buffer buffer' : Buffer} {r r' : Reading} (same : f.courseOf d buffer = f'.courseOf d buffer')
      (shown : (f.courseOf d buffer).Shown buffer r)
      (shown' : (f'.courseOf d buffer').Shown buffer' r') :
      Parallel (.read f (.ok d) buffer r) (.read f' (.ok d) buffer' r')
  | drain {f : Filter engine} {f' : Filter engine'} (twins : f.Twins f') (bytes : Bytes) :
      Parallel (.drain f bytes) (.drain f' bytes)

section Parallel

variable {k : Backend pool engine} {k' : Backend pool' engine'} {f g : Filter engine}
  {f' g' : Filter engine'}

/-- Twins have the same courses. -/
theorem Twins.courseOf_eq (h : f.Twins f') (d : Delivery) {buffer buffer' : Buffer}
    (hsize : buffer.size = buffer'.size)
    (hwindow : buffer.window? d.length = buffer'.window? d.length) :
    f.courseOf d buffer = f'.courseOf d buffer' := by
  rw [courseOf, courseOf, h.carry, h.waiting, hsize, hwindow]

/-- **Reads on one course leave twins.** -/
theorem Follows.twins {c : Course} {buffer buffer' : Buffer} {r r' : Reading}
    (h : Follows c f buffer r g) (h' : Follows c f' buffer' r' g') (htwins : f.Twins f')
    (hsettings : g.settings = f.settings) (hsettings' : g'.settings = f'.settings)
    (hframes : g.counters.frames = f.counters.frames + r.analyses.length)
    (hframes' : g'.counters.frames = f'.counters.frames + r'.analyses.length) : g.Twins g' := by
  have hcount : r.analyses.length = r'.analyses.length := by
    rw [← List.length_map (f := Analysis.frame), h.shown.frames, ← h'.shown.frames, List.length_map]
  -- the counters of packets have the entries of the fate, which is that of the course
  have hget : ∀ i ∉ Counter.frames, f.counters.get i = f'.counters.get i →
      g.counters.get i = g'.counters.get i := by
    intro i hi heq
    rw [h.entries, h'.entries, List.count_append, List.count_append,
      Analysis.count_counter_eq_zero hi, Analysis.count_counter_eq_zero hi, heq]
  refine ⟨?_, h.waiting.trans h'.waiting.symm, ?_, ?_, ?_, ?_⟩
  · rw [hsettings, hsettings']
    exact htwins.carry
  · exact hget .packetsSuppressed (by decide) htwins.suppressed
  · exact hget .packetsPassed (by decide) htwins.passed
  · exact hget .fallbacks (by decide) htwins.fallbacks
  · rw [hframes, hframes', htwins.frames, hcount]

/-- **Actions that are alike are turns side by side**, and leave twins. -/
theorem Action.Alike.act {a a' : Action} (h : a.Alike a') (p : pool) (p' : pool')
    (htwins : f.Twins f') (hactive : (f.started k p).stage.status = .active)
    (hactive' : (f'.started k' p').stage.status = .active) :
    Turn.Parallel (f.act k p a).1 (f'.act k' p' a').1 ∧
      (f.act k p a).2.1.Twins (f'.act k' p' a').2.1 := by
  cases h with
  | @read arrival buffer buffer' hsize hwindow =>
    have hexit := f.exit_read k p arrival buffer
    have hexit' := f'.exit_read k' p' arrival buffer'
    cases arrival with
    | error why => exact ⟨.failed htwins why buffer buffer', htwins⟩
    | ok d =>
      have hfollows := hexit.follows hactive
      have hfollows' := hexit'.follows hactive'
      have hsame := htwins.courseOf_eq d hsize (hwindow d rfl)
      refine ⟨.read htwins hsame hfollows.shown hfollows'.shown, ?_⟩
      rw [← hsame] at hfollows'
      exact hfollows.twins hfollows' htwins hexit.settings_eq hexit'.settings_eq hexit.counts.1
        hexit'.counts.1
  | drain =>
    change Turn.Parallel (.drain f f.accumulator.waiting) (.drain f' f'.accumulator.waiting) ∧ _
    rw [← htwins.waiting]
    exact ⟨.drain htwins _, htwins.carry, rfl, htwins.suppressed, htwins.passed, htwins.fallbacks,
      htwins.frames⟩

/-- **Runs go side by side.** -/
theorem parallel_run {actions actions' : List Action} (h : List.Forall₂ Action.Alike actions actions') :
    ∀ (p : pool) (p' : pool') {f : Filter engine} {f' : Filter engine'}, f.Twins f' →
      (f.started k p).stage.status = .active → (f'.started k' p').stage.status = .active →
      List.Forall₂ Turn.Parallel (f.run k p actions).1 (f'.run k' p' actions').1 ∧
        (f.run k p actions).2.1.Twins (f'.run k' p' actions').2.1 := by
  induction h with
  | nil => exact fun p p' f f' htwins _ _ => ⟨.nil, htwins⟩
  | @cons a a' actions actions' halike _ ih =>
    intro p p' f f' htwins hactive hactive'
    obtain ⟨hturn, htwins'⟩ := halike.act p p' htwins hactive hactive'
    obtain ⟨hturns, hend⟩ := ih (f.act k p a).2.2 (f'.act k' p' a').2.2 htwins'
      ((f.started_act k p a).1.trans hactive) ((f'.started_act k' p' a').1.trans hactive')
    exact ⟨.cons hturn hturns, hend⟩

end Parallel

/-- **Nothing depends on the engine but the sound.** Two new filters, with two engines of any kind and
any thresholds, of which both or neither keep incomplete frames waiting, go through arrivals that are
alike. Then all their turns are side by side: every read shows the course that it has without an engine,
and before each turn and after the last the filters are twins. -/
theorem run_parallel (k : Backend pool engine) (k' : Backend pool' engine') (p : pool) (p' : pool')
    (ssrc ssrc' : UInt32) (settings settings' : Settings) {e : engine} {e' : engine'}
    (hcreate : (k.create p).1 = .ok e) (hcreate' : (k'.create p').1 = .ok e')
    (hcarry : settings.carryRemainder = settings'.carryRemainder) {actions actions' : List Action}
    (halike : List.Forall₂ Action.Alike actions actions') :
    List.Forall₂ Turn.Parallel ((new ssrc settings).run k p actions).1
        ((new ssrc' settings').run k' p' actions').1 ∧
      ((new ssrc settings).run k p actions).2.1.Twins
        ((new ssrc' settings').run k' p' actions').2.1 := by
  have hstage := stage_started_new k p ssrc settings
  have hstage' := stage_started_new k' p' ssrc' settings'
  rw [hcreate] at hstage
  rw [hcreate'] at hstage'
  exact parallel_run halike p p' ⟨hcarry, rfl, rfl, rfl, rfl, rfl⟩ (congrArg Stage.status hstage)
    (congrArg Stage.status hstage')

/-- Three packets go through an engine that fails on every other frame as they go through one that hears
no voice. -/
theorem run_parallel_of_threePackets :
    List.Forall₂ Turn.Parallel
        ((new 1 carrying).run turning 0 (Incoming.session threePackets)).1
        ((new 2 carrying).run Network.inert.backend () (Incoming.session threePackets)).1 ∧
      ((new 1 carrying : Filter Nat).run turning 0 (Incoming.session threePackets)).2.1.Twins
        ((new 2 carrying).run Network.inert.backend () (Incoming.session threePackets)).2.1 :=
  run_parallel turning Network.inert.backend 0 () 1 2 carrying carrying rfl rfl rfl
    (List.forall₂_same.2 fun a _ => .refl a)

end Filter

end NoiseFilter
