import NoiseFilter.Engine.Script
import NoiseFilter.Proofs.Stream.Headers
import NoiseFilter.Proofs.Stream.Run

/-!
# No byte is lost

The payloads that arrive at a filter are one stream of bytes, and so are the payloads and the drained
bytes that leave it. `Filter.run_conserves` compares the two after every run:

* **whatever the engine answers**, as many bytes have left, are still waiting or were dropped as have
  arrived;
* **with an engine that hands every frame back or fails on it**, what has left and what still waits is
  the stream that arrived, in its order, less the bytes that were dropped (`Filter.Keeps`).

Bytes are dropped in one place only, the exit `dropped`, which says so in a notice; then all that waited
is lost (`Turn.discarded`). What one exit does to the stream is `Filter.Exit.conserves`, and a run is a
sequence of exits.

Two things have to be arranged.

* **Payloads are read off packets.** What leaves with a packet is the payload that the next reader will
  find in it, after the header was written anew; that it is there at all is what the headers are for.
* **Which bytes were dropped** has to be said by their place, since a stream may repeat itself: they are
  the last ones of what had been kept until then.
-/

namespace NoiseFilter

open Rtp

/-- Whether an event is the loss of waiting bytes. -/
def Notice.isLoss : Notice → Bool
  | dropped .. => true
  | _ => false

namespace Filter

variable {pool engine : Type}

namespace Turn

/-- **The payload that arrived.** -/
def arrived : Turn engine → Bytes
  | read _ (.ok d) buffer _ => buffer.payload d.length
  | read _ (.error _) _ _ => []
  | drain .. => []

/-- **What left**: the payload of the packet in the buffer afterwards, or the drained bytes. -/
def delivered : Turn engine → Bytes
  | read _ _ _ reading =>
    match reading.outcome with
    | .delivered d => reading.buffer.payload d.length
    | _ => []
  | drain _ bytes => bytes

/-- **What was dropped**: all that waited, if a loss is on record. -/
def discarded : Turn engine → Bytes
  | read before _ _ reading =>
    if reading.notices.any Notice.isLoss then before.accumulator.waiting else []
  | drain .. => []

/-- The frames that were put to the engine. -/
def analyses : Turn engine → List Analysis
  | read _ _ _ reading => reading.analyses
  | drain .. => []

/-- The engine handed every frame back as voice, or failed on it. -/
def Faithful (t : Turn engine) : Prop := ∀ a ∈ t.analyses, a.Faithful

end Turn

/-- **What a run keeps of a stream.** `Keeps stream turns kept`: to `stream` the payloads are added that
arrive in `turns`, and `kept` is what that comes to if at every turn the bytes that are dropped are
taken off the end of what there was before it. -/
inductive Keeps : Bytes → List (Turn engine) → Bytes → Prop
  | nil (stream : Bytes) : Keeps stream [] stream
  | cons (front : Bytes) (t : Turn engine) (turns : List (Turn engine)) (kept : Bytes) :
      Keeps (front ++ t.arrived) turns kept → Keeps (front ++ t.discarded) (t :: turns) kept

/-- What is kept is settled by the turns. -/
theorem Keeps.unique {stream kept kept' : Bytes} {turns : List (Turn engine)}
    (h : Keeps stream turns kept) (h' : Keeps stream turns kept') : kept = kept' := by
  induction turns generalizing stream with
  | nil =>
    cases h
    cases h'
    rfl
  | cons t turns ih =>
    obtain ⟨front, hstream⟩ : ∃ front, stream = front ++ t.discarded := by
      cases h
      exact ⟨_, rfl⟩
    have hrest : ∀ {kept}, Keeps stream (t :: turns) kept → Keeps (front ++ t.arrived) turns kept := by
      intro kept hkept
      generalize hs : t :: turns = ts at hkept
      cases hkept with
      | nil => cases hs
      | cons front' t' turns' kept hkept =>
        cases hs
        obtain rfl : front' = front := List.append_cancel_right hstream
        exact hkept
    exact ih (hrest h) (hrest h')

/-- **What one turn does to the stream**, `waiting` before it and `waiting'` after it. -/
structure Conserves (waiting : Bytes) (t : Turn engine) (waiting' : Bytes) : Prop where
  counts : waiting.length + t.arrived.length =
    t.delivered.length + waiting'.length + t.discarded.length
  bytes : t.Faithful → ∃ front, waiting = front ++ t.discarded ∧
    front ++ t.arrived = t.delivered ++ waiting'

/-- A turn at which nothing is dropped. -/
theorem Conserves.of_kept {waiting waiting' : Bytes} {t : Turn engine} (hdiscarded : t.discarded = [])
    (hcounts : (waiting ++ t.arrived).length = (t.delivered ++ waiting').length)
    (hbytes : t.Faithful → waiting ++ t.arrived = t.delivered ++ waiting') :
    Conserves waiting t waiting' := by
  refine ⟨?_, fun hfaithful => ⟨waiting, ?_, hbytes hfaithful⟩⟩
  · rw [List.length_append, List.length_append] at hcounts
    rw [hdiscarded, List.length_nil, hcounts, Nat.add_zero]
  · rw [hdiscarded, List.append_nil]

/-- A turn at which nothing is dropped and no byte is changed. -/
theorem Conserves.of_eq {waiting waiting' : Bytes} {t : Turn engine} (hdiscarded : t.discarded = [])
    (h : waiting ++ t.arrived = t.delivered ++ waiting') : Conserves waiting t waiting' :=
  .of_kept hdiscarded (congrArg List.length h) fun _ => h

/-! ### Where nothing is dropped -/

theorem isLoss_of_quiet {notices : List Notice} (h : Quiet notices) :
    notices.any Notice.isLoss = false := by
  refine List.any_eq_false.2 fun n hn hloss => ?_
  cases n with
  | dropped ssrc count => exact h ssrc count hn
  | _ => cases hloss

theorem discarded_of_quiet {f : Filter engine} {arrival : Arrival} {buffer : Buffer} {r : Reading}
    (h : Quiet r.notices) : (Turn.read f arrival buffer r).discarded = [] := by
  rw [Turn.discarded, isLoss_of_quiet h]
  rfl

/-! ### One turn -/

/-- **Every exit conserves the stream.** -/
theorem Exit.conserves {k : Backend pool engine} {p : pool} {f g : Filter engine} {buffer : Buffer}
    {arrival : Arrival} {r : Reading} (h : f.Exit k p buffer arrival r g) (hf : f.Coherent)
    (hsmall : ∀ d, arrival = .ok d → d.length ≤ 65535) :
    Conserves f.accumulator.waiting (.read f arrival buffer r) g.accumulator.waiting := by
  have hstarted := started_accumulator k p f
  cases h with
  -- the exits that hand the packet on as it arrived: its payload goes past what waits, so that
  -- either it has none or nothing may wait
  | failed why => exact .of_eq rfl (List.append_nil _)
  | degraded d notices hquiet hstage =>
    refine .of_eq (discarded_of_quiet hquiet) ?_
    change _ = _ ++ (f.started k p).accumulator.waiting
    rw [hstarted, hf.waiting_of_degraded hstage]
    exact (List.append_nil _).symm
  | overrun d e notices hquiet hstage hsize hfault =>
    have harrived := Buffer.payload_of_none (Buffer.packet?_eq_none fun _ => ⟨_, hfault⟩)
    refine .of_eq (discarded_of_quiet hquiet) ?_
    change _ ++ buffer.payload d.length = [] ++ (f.started k p).accumulator.waiting
    rw [harrived, hstarted]
    exact List.append_nil _
  | unread d e notices hquiet hstage hfault =>
    have harrived : buffer.payload d.length = [] := by
      refine Buffer.payload_of_none (Buffer.packet?_eq_none fun hsize => ?_)
      obtain ⟨what, hmalformed⟩ := hfault hsize
      exact ⟨_, hmalformed⟩
    refine .of_eq (discarded_of_quiet hquiet) ?_
    change _ ++ buffer.payload d.length =
      buffer.payload d.length ++ (f.started k p).accumulator.waiting
    rw [harrived, hstarted]
    exact List.append_nil _
  | short d e packet notices hquiet hstage hpacket hshort =>
    refine .of_eq (discarded_of_quiet hquiet) ?_
    change _ = _ ++ (f.started k p).accumulator.waiting
    rw [hstarted, hf.waiting_of_isShort hshort]
    exact (List.append_nil _).symm
  -- the exits of a packet for the engine
  | suppressed d e packet data notices hquiet htakes hdata hfits =>
    have hwf := Buffer.wellFormed_of_packet? (hsmall d rfl) htakes.decoded
    have hlen := (f.started k p).length_suppress k e packet.payload
    refine .of_kept (discarded_of_quiet hquiet) ?_ fun hfaithful => ?_
    · change (_ ++ buffer.payload d.length).length =
        ((buffer.overwrite data).payload data.length ++ _).length
      rw [Buffer.payload_of_packet? htakes.decoded, Buffer.payload_overwrite hwf hdata hfits,
        ← hstarted, ← hlen]
      exact List.length_append.symm
    · have hbytes := suppress_of_faithful (k := k) (f := f.started k p) (e := e) hfaithful
      change _ ++ buffer.payload d.length = (buffer.overwrite data).payload data.length ++ _
      rw [Buffer.payload_of_packet? htakes.decoded, Buffer.payload_overwrite hwf hdata hfits,
        ← hstarted]
      exact hbytes.symm
  | gaveUp d e packet notices hquiet htakes hunfit hwaiting =>
    refine .of_eq (discarded_of_quiet hquiet) ?_
    rw [hwaiting]
    exact (List.append_nil _).symm
  | released d e packet data notices hquiet htakes hunfit hwaiting hdata hfits =>
    have hwf := Buffer.wellFormed_of_packet? (hsmall d rfl) htakes.decoded
    refine .of_eq (discarded_of_quiet hquiet) ?_
    change _ ++ buffer.payload d.length = (buffer.overwrite data).payload data.length ++ _
    rw [Buffer.payload_of_packet? htakes.decoded, Buffer.payload_overwrite hwf hdata hfits]
    exact (List.take_append_drop _ _).symm
  | dropped d e packet notices hdrop htakes hunfit hwaiting hnone =>
    have hdiscarded : (Turn.read f (.ok d) buffer ⟨.delivered d, buffer, notices,
        ((f.started k p).suppress k e packet.payload).analyses⟩).discarded =
        f.accumulator.waiting := by
      rw [Turn.discarded, if_pos (List.any_eq_true.2 ⟨_, hdrop, rfl⟩)]
    refine ⟨?_, fun _ => ⟨[], hdiscarded.symm, (List.append_nil _).symm⟩⟩
    rw [hdiscarded]
    exact Nat.add_comm _ _

/-- Every action conserves the stream. -/
theorem conserves_act (k : Backend pool engine) (p : pool) {f : Filter engine} (hf : f.Coherent)
    (a : Action) (hsmall : ∀ d buffer, a = .read (.ok d) buffer → d.length ≤ 65535) :
    Conserves f.accumulator.waiting (f.act k p a).1 (f.act k p a).2.1.accumulator.waiting := by
  cases a with
  | read arrival buffer =>
    refine (f.exit_read k p arrival buffer).conserves hf fun d hd => hsmall d buffer ?_
    rw [hd]
  | drain => exact .of_eq rfl rfl

/-! ### A run -/

/-- **Every run conserves the stream**, from any filter that can be reached. -/
theorem Coherent.conserves_run (k : Backend pool engine) (actions : List Action) :
    ∀ (p : pool) {f : Filter engine}, f.Coherent →
      (∀ d buffer, .read (.ok d) buffer ∈ actions → d.length ≤ 65535) →
      f.accumulator.waiting.length + ((f.run k p actions).1.flatMap Turn.arrived).length =
          ((f.run k p actions).1.flatMap Turn.delivered).length +
            (f.run k p actions).2.1.accumulator.waiting.length +
            ((f.run k p actions).1.flatMap Turn.discarded).length ∧
        ((∀ t ∈ (f.run k p actions).1, t.Faithful) → ∀ done : Bytes,
          Keeps (done ++ f.accumulator.waiting) (f.run k p actions).1
            (done ++ (f.run k p actions).1.flatMap Turn.delivered ++
              (f.run k p actions).2.1.accumulator.waiting)) := by
  induction actions with
  | nil =>
    intro p f hf _
    refine ⟨Nat.add_comm _ _, fun _ done => ?_⟩
    rw [run, List.flatMap_nil, List.append_nil]
    exact .nil _
  | cons a actions ih =>
    intro p f hf hsmall
    have hone := conserves_act k p hf a fun d buffer ha => hsmall d buffer (ha ▸ List.mem_cons_self)
    -- what this turn delivers is done with when the others begin
    obtain ⟨hcounts, hbytes⟩ := ih (f.act k p a).2.2 (coherent_act k p f a hf)
      fun d buffer hmem => hsmall d buffer (List.mem_cons_of_mem _ hmem)
    rw [run_cons]
    obtain ⟨turns, hturns⟩ : ∃ ts,
      ((f.act k p a).2.1.run k (f.act k p a).2.2 actions).1 = ts := ⟨_, rfl⟩
    simp only [hturns, List.flatMap_cons, List.length_append, List.forall_mem_cons] at hcounts hbytes ⊢
    refine ⟨?_, fun ⟨hfaithful, hrest⟩ done => ?_⟩
    · have := hone.counts
      omega
    · obtain ⟨front, hfront, hmoved⟩ := hone.bytes hfaithful
      have hkeeps := hbytes hrest (done ++ (f.act k p a).1.delivered)
      rw [List.append_assoc done, ← hmoved] at hkeeps
      rw [hfront, ← List.append_assoc]
      refine .cons (done ++ front) _ _ _ ?_
      rw [List.append_assoc done front, ← List.append_assoc done]
      rw [List.append_assoc done] at hkeeps ⊢
      exact hkeeps

/-- What a read puts to a faithful engine is answered faithfully. -/
theorem Exit.faithful {k : Backend pool engine} (hk : k.Faithful) {p : pool} {f g : Filter engine}
    {buffer : Buffer} {arrival : Arrival} {r : Reading} (h : f.Exit k p buffer arrival r g) :
    ∀ a ∈ r.analyses, a.Faithful := by
  have hsuppress : ∀ e payload, ∀ a ∈ ((f.started k p).suppress k e payload).analyses,
      a.Faithful := by
    intro e payload
    rw [analyses_suppress]
    exact hk.analyse _ _ _
  cases h with
  | failed | degraded | overrun | unread | short => exact fun a ha => absurd ha List.not_mem_nil
  | suppressed | gaveUp | released | dropped => exact hsuppress _ _

/-- A faithful engine makes every turn faithful. -/
theorem faithful_run {k : Backend pool engine} (hk : k.Faithful) (actions : List Action) :
    ∀ (p : pool) (f : Filter engine), ∀ t ∈ (f.run k p actions).1, t.Faithful := by
  induction actions with
  | nil => exact fun p f t ht => absurd ht List.not_mem_nil
  | cons a actions ih =>
    intro p f
    rw [run_cons]
    refine List.forall_mem_cons.2 ⟨?_, ih _ _⟩
    cases a with
    | read arrival buffer => exact (f.exit_read k p arrival buffer).faithful hk
    | drain => exact fun a ha => absurd ha List.not_mem_nil

/-- **No run loses a byte without saying so.** After any reads and drains, as many bytes have left, wait
or were dropped as have arrived; and if the engine handed back every frame that it did not fail on, what
has left and what waits are the very bytes that arrived, in order, less those that were dropped. -/
theorem run_conserves (k : Backend pool engine) (p : pool) (ssrc : UInt32) (settings : Settings)
    (actions : List Action)
    (hsmall : ∀ d buffer, .read (.ok d) buffer ∈ actions → d.length ≤ 65535) :
    ((((new ssrc settings).run k p actions).1.flatMap Turn.arrived).length =
        (((new ssrc settings).run k p actions).1.flatMap Turn.delivered).length +
          ((new ssrc settings).run k p actions).2.1.accumulator.waiting.length +
          (((new ssrc settings).run k p actions).1.flatMap Turn.discarded).length) ∧
      ((∀ t ∈ ((new ssrc settings).run k p actions).1, t.Faithful) →
        Keeps [] ((new ssrc settings).run k p actions).1
          (((new ssrc settings).run k p actions).1.flatMap Turn.delivered ++
            ((new ssrc settings).run k p actions).2.1.accumulator.waiting)) := by
  obtain ⟨hcounts, hbytes⟩ :=
    (coherent_new ssrc settings : (new ssrc settings : Filter engine).Coherent).conserves_run k
      actions p hsmall
  refine ⟨?_, fun hfaithful => hbytes hfaithful []⟩
  change 0 + _ = _ at hcounts
  rwa [Nat.zero_add] at hcounts

/-- Three actions: a packet of a frame and 40 bytes, one that fills its buffer, and a drain. -/
def threeActions : List Action :=
  [.read (.ok ⟨1012, []⟩) ⟨[0x80, 0x6F, 0, 1, 0, 0, 0, 0, 0, 0, 0x30, 0x39] ++ List.replicate 1000 7, 0⟩,
    .read (.ok ⟨28, []⟩) filledBuffer, .drain]

/-- An engine that changes nothing keeps the bytes of three actions. -/
theorem run_conserves_of_three :
    ∃ turns g q, (new 12345 nearlyFrame.settings : Filter Nat).run (Script.backend ⟨[], []⟩) 0
        threeActions = (turns, g, q) ∧
      (turns.flatMap Turn.arrived).length = (turns.flatMap Turn.delivered).length +
        g.accumulator.waiting.length + (turns.flatMap Turn.discarded).length ∧
      Keeps [] turns (turns.flatMap Turn.delivered ++ g.accumulator.waiting) := by
  have hfaithful : (Script.backend ⟨[], []⟩).Faithful := by
    rintro e frame threshold verdict hverdict
    obtain rfl := Except.ok.inj hverdict
    exact ⟨rfl, rfl⟩
  have hsmall : ∀ d buffer, Action.read (.ok d) buffer ∈ threeActions → d.length ≤ 65535 := by
    intro d buffer hmem
    simp only [threeActions, List.mem_cons, List.not_mem_nil, or_false, Action.read.injEq,
      Except.ok.injEq, reduceCtorEq] at hmem
    rcases hmem with ⟨rfl, -⟩ | ⟨rfl, -⟩ <;> decide
  obtain ⟨hcounts, hkeeps⟩ :=
    run_conserves (Script.backend ⟨[], []⟩) 0 12345 nearlyFrame.settings threeActions hsmall
  have hturns := faithful_run hfaithful threeActions 0 (new 12345 nearlyFrame.settings)
  rcases hrun : (new 12345 nearlyFrame.settings : Filter Nat).run (Script.backend ⟨[], []⟩) 0
    threeActions with ⟨turns, g, q⟩
  rw [hrun] at hcounts hkeeps hturns
  exact ⟨turns, g, q, rfl, hcounts, hkeeps hturns⟩

end Filter

end NoiseFilter
