import NoiseFilter.Proofs.Stream.Numbering
import NoiseFilter.Proofs.Stream.Splitting
import NoiseFilter.Proofs.Stream.Treatment

/-!
# No byte waits for more than one packet

What fills no frame waits for the next packet, and not for longer. Where incomplete frames wait and no
read falls back, a read of a packet sends **all** that waited before it, in front of everything else, and
lets wait an end of its own payload or nothing. `Filter.run_prompt` says so for every such read of a run,
and how many bytes wait is then a matter of two lengths:

| waiting and payload are | what waited goes out | what waits afterwards |
|---|---|---|
| a frame or more | in the first frame | the remainder by a frame |
| less than a frame | raw, with the payload behind it | nothing |

The first row needs that less than a frame waits, or else what waited would not all be in one frame. This
holds because only a fallback lets more than that wait (`Filter.waiting_run_lt_of_unfallen`). The second is
why packets that complete no frame do not add up: behind one of them nothing waits, and then a payload of
less than a frame goes on as it arrived.
-/

namespace NoiseFilter

open Rtp

namespace Filter

variable {pool engine : Type}

/-! ### One payload -/

section Handle

variable (k : Backend pool engine) {f : Filter engine} (e : engine) {payload : Bytes}

/-- **A frame completes**: the first one begins with all that waited, and what waits behind the payload is
the end of it. -/
theorem handle_of_completes (hcarry : f.settings.carryRemainder = true)
    (hlt : f.accumulator.waiting.length < frameBytes)
    (hframe : frameBytes ≤ (f.accumulator.waiting ++ payload).length) :
    (∃ a analyses, (f.handle k e payload).analyses = a :: analyses ∧
        f.accumulator.waiting <+: a.frame.bytes ∧
        a.output.bytes <+: (f.handle k e payload).payload) ∧
      (f.handle k e payload).accumulator.waiting <:+ payload ∧
      (f.handle k e payload).accumulator.waiting.length =
        (f.accumulator.waiting ++ payload).length % frameBytes := by
  have hlong : f.isShort payload = false := by
    rw [isShort, hcarry, Bool.not_true, Bool.false_or, Bool.and_eq_false_imp, decide_eq_true_eq,
      List.isEmpty_eq_false_iff]
    rintro hless hnil
    rw [hnil, List.nil_append] at hframe
    omega
  have hstart := f.frames_suppress_start k e payload
  have hend := f.waiting_suppress_suffix k e payload
  have hcount : (f.suppress k e payload).analyses.length =
      (f.accumulator.waiting ++ payload).length / frameBytes := by
    rw [analyses_suppress, k.length_analyse, (f.accumulator.length_feed payload).1]
  obtain ⟨hpayload, hwaiting⟩ := f.suppress_of_waits k e payload hcarry hframe
  have hremainder : (f.suppress k e payload).accumulator.waiting.length =
      (f.accumulator.waiting ++ payload).length % frameBytes := by
    rw [hwaiting]
    exact (f.accumulator.length_feed payload).2
  rw [handle_of_not_isShort k e hlong]
  refine ⟨?_, ?_, hremainder⟩
  · rw [hpayload, processed]
    cases hanalyses : (f.suppress k e payload).analyses with
    | nil =>
      rw [hanalyses, List.length_nil] at hcount
      exact absurd hcount.symm (Nat.ne_of_gt (Nat.div_pos hframe (by decide)))
    | cons a analyses =>
      rw [hanalyses, List.map_cons, WireFrame.join_cons] at hstart
      refine ⟨a, analyses, rfl, ?_, ?_⟩
      · -- both begin the stream, and a frame is the longer
        refine List.prefix_of_prefix_length_le (List.prefix_append _ _)
          ((List.prefix_append _ _).trans hstart) ?_
        rw [a.frame.length_bytes]
        exact Nat.le_of_lt hlt
      · rw [List.map_cons, WireFrame.join_cons]
        exact List.prefix_append _ _
  · -- both end the stream, and a frame lies before what waits
    refine List.suffix_of_suffix_length_le hend (List.suffix_append _ _) ?_
    have hdiv := Nat.div_add_mod (f.accumulator.waiting ++ payload).length frameBytes
    have hone := Nat.mul_le_mul_left frameBytes (Nat.div_pos hframe (by decide))
    rw [hremainder]
    rw [List.length_append] at hdiv hone ⊢
    omega

/-- **No frame completes**: all that waited goes out in front of the payload, and nothing waits. -/
theorem handle_of_incomplete (hcarry : f.settings.carryRemainder = true)
    (hless : (f.accumulator.waiting ++ payload).length < frameBytes) :
    (f.handle k e payload).analyses = [] ∧
      (f.handle k e payload).payload = f.accumulator.waiting ++ payload ∧
      (f.handle k e payload).accumulator.waiting = [] := by
  cases hshort : f.isShort payload with
  | true =>
    rw [isShort, hcarry, Bool.not_true, Bool.false_or, Bool.and_eq_true, List.isEmpty_iff] at hshort
    rw [handle_of_isShort k e (isShort_eq_true (of_decide_eq_true hshort.1) hshort.2), hshort.2]
    exact ⟨rfl, rfl, rfl⟩
  | false =>
    have hfeed : f.accumulator.feed payload = ([], ⟨f.accumulator.waiting ++ payload⟩) := by
      rw [Accumulator.feed, Accumulator.cut_of_lt hless]
    have hanalyses : (f.suppress k e payload).analyses = [] := by
      rw [analyses_suppress, hfeed]
      rfl
    obtain ⟨hpayload, hwaiting⟩ := f.suppress_of_flushes k e payload (.inr hless)
    rw [handle_of_not_isShort k e hshort, hpayload, hwaiting, processed, hanalyses, hfeed]
    exact ⟨rfl, rfl, rfl⟩

end Handle

/-! ### One read -/

/-- **A read is prompt**: it sends on all that waited before it, and lets wait a part of its own packet. -/
structure Prompt (f : Filter engine) (buffer : Buffer) (d : Delivery) (packet : Packet) (r : Reading)
    (g : Filter engine) : Prop where
  /-- What waited is at the start of the payload delivered: in the first frame, or raw if there is none. -/
  sent : ∃ sent, Delivers buffer d packet r sent ∧
    (d.length ≤ 65535 → ∃ d', r.outcome = .delivered d' ∧ r.buffer.payload d'.length = sent) ∧
    (r.analyses = [] → sent = f.accumulator.waiting ++ packet.payload) ∧
    ∀ a analyses, r.analyses = a :: analyses →
      f.accumulator.waiting <+: a.frame.bytes ∧ a.output.bytes <+: sent
  completes : r.analyses ≠ [] ↔
    frameBytes ≤ f.accumulator.waiting.length + packet.payload.length
  suffix : g.accumulator.waiting <:+ packet.payload
  lt : g.accumulator.waiting.length < frameBytes
  length : g.accumulator.waiting.length =
    if frameBytes ≤ f.accumulator.waiting.length + packet.payload.length then
      (f.accumulator.waiting.length + packet.payload.length) % frameBytes
    else 0

section Read

variable {k : Backend pool engine} {p : pool} {f g : Filter engine} {buffer : Buffer} {r : Reading}

/-- **Only a fallback lets a frame wait.** -/
theorem Exit.waiting_lt_of_unfallen {arrival : Arrival} (h : f.Exit k p buffer arrival r g)
    (hnone : g.counters.fallbacks = f.counters.fallbacks)
    (hlt : f.accumulator.waiting.length < frameBytes) :
    g.accumulator.waiting.length < frameBytes := by
  have hstarted := started_accumulator k p f
  cases h with
  | failed why => exact hlt
  | degraded | overrun | unread | short =>
    rw [← hstarted] at hlt
    exact hlt
  | suppressed d e packet => exact (f.started k p).waiting_suppress_lt k e packet.payload
  | gaveUp | dropped => exact show [].length < frameBytes by decide
  | released d e packet => exact absurd hnone (f.fallbacks_fallenBack_ne k p e _ _)

variable {d : Delivery} {e : engine} {packet : Packet}

/-- **A read of a packet without a fallback is prompt**, where incomplete frames wait and less than one
does. -/
theorem Exit.prompt (h : f.Exit k p buffer (.ok d) r g)
    (hcarry : f.settings.carryRemainder = true) (hlt : f.accumulator.waiting.length < frameBytes)
    (hstage : (f.started k p).stage = .active e) (hpacket : buffer.packet? d.length = some packet)
    (hnone : g.counters.fallbacks = f.counters.fallbacks) : f.Prompt buffer d packet r g := by
  have hsmall := h.waiting_lt_of_unfallen hnone hlt
  obtain ⟨hdelivers, hanalyses, hfilter⟩ := h.delivers hstage hpacket hnone
  have hread : d.length ≤ 65535 → ∃ d', r.outcome = .delivered d' ∧
      r.buffer.payload d'.length = (f.handle k e packet.payload).payload := by
    intro hlength
    obtain ⟨d', what, houtcome, hwhat, hsent⟩ :=
      hdelivers.packet? (Buffer.wellFormed_of_packet? hlength hpacket) hpacket
    exact ⟨d', houtcome, (Buffer.payload_of_packet? hwhat).trans hsent⟩
  have hwaiting : g.accumulator.waiting = (f.handle k e packet.payload).accumulator.waiting := by
    rw [hfilter]
    rfl
  rcases Nat.lt_or_ge (f.accumulator.waiting ++ packet.payload).length frameBytes with hless | hframe
  · obtain ⟨hnil, hpayload, hempty⟩ := handle_of_incomplete k e hcarry hless
    rw [List.length_append] at hless
    rw [hnil] at hanalyses
    rw [hempty] at hwaiting
    refine ⟨⟨_, hdelivers, hread, fun _ => hpayload, fun a analyses hsome => ?_⟩, ?_, ?_, hsmall, ?_⟩
    · rw [hanalyses] at hsome
      cases hsome
    · exact iff_of_false (fun hsome => hsome hanalyses) (Nat.not_le.2 hless)
    · rw [hwaiting]
      exact List.nil_suffix
    · rw [hwaiting, if_neg (Nat.not_le.2 hless)]
      rfl
  · obtain ⟨⟨a, analyses, hcons, hfirst, hout⟩, hsuffix, hlength⟩ :=
      handle_of_completes k e hcarry hlt hframe
    rw [List.length_append] at hframe hlength
    rw [hcons] at hanalyses
    refine ⟨⟨_, hdelivers, hread, fun hnil => ?_, fun a' analyses' hsome => ?_⟩, ?_, ?_, hsmall, ?_⟩
    · rw [hanalyses] at hnil
      cases hnil
    · obtain ⟨rfl, -⟩ := List.cons.inj (hanalyses.symm.trans hsome)
      exact ⟨hfirst, hout⟩
    · refine iff_of_true (fun hnil => ?_) hframe
      rw [hanalyses] at hnil
      cases hnil
    · rw [hwaiting]
      exact hsuffix
    · rw [hwaiting, if_pos hframe]
      exact hlength

/-- **Less than a frame behind nothing** goes on as it arrived, and nothing waits behind it. -/
theorem Exit.of_less (h : f.Exit k p buffer (.ok d) r g) (hstage : (f.started k p).stage = .active e)
    (hpacket : buffer.packet? d.length = some packet) (hless : packet.payload.length < frameBytes)
    (hwaiting : f.accumulator.waiting = []) :
    r.outcome = .delivered d ∧ r.buffer = buffer ∧ r.analyses = [] ∧ g.accumulator.waiting = [] := by
  have hstarted := congrArg Accumulator.waiting (started_accumulator k p f)
  rw [hwaiting] at hstarted
  have hnever : ∀ {e' packet'}, ¬ (f.started k p).Takes e' d buffer packet' := by
    intro e' packet' htakes
    obtain rfl := htakes.unique hpacket
    have hlong := htakes.long
    rw [isShort_eq_true hless hstarted] at hlong
    cases hlong
  cases h with
  | degraded _ notices hquiet hidle => exact absurd hstage (hidle e)
  | overrun _ e' notices hquiet hstage' hsize hfault =>
    exact absurd hfault (Buffer.decode_ne_error_of_packet? hpacket _)
  | unread | short => exact ⟨rfl, rfl, rfl, hstarted⟩
  | suppressed _ e' packet' data notices hquiet htakes => exact absurd htakes hnever
  | gaveUp _ e' packet' notices hquiet htakes => exact absurd htakes hnever
  | released _ e' packet' data notices hquiet htakes => exact absurd htakes hnever
  | dropped _ e' packet' notices hdrop htakes => exact absurd htakes hnever

end Read

/-! ### A run -/

/-- **Less than a frame waits as long as nothing falls back.** -/
theorem waiting_run_lt_of_unfallen (k : Backend pool engine) (actions : List Action) :
    ∀ (p : pool) {f : Filter engine}, f.accumulator.waiting.length < frameBytes →
      (f.run k p actions).2.1.counters.fallbacks = f.counters.fallbacks →
      (f.run k p actions).2.1.accumulator.waiting.length < frameBytes := by
  induction actions with
  | nil => exact fun p f hlt _ => hlt
  | cons a actions ih =>
    intro p f hlt hnone
    obtain ⟨hfirst, hlater⟩ := fallbacks_of_run_cons k hnone
    rw [run_cons]
    refine ih _ ?_ hlater
    cases a with
    | read arrival buffer => exact (f.exit_read k p arrival buffer).waiting_lt_of_unfallen hfirst hlt
    | drain => exact show [].length < frameBytes by decide

/-- **No byte waits for more than one packet.** In a run where incomplete frames wait and no read falls
back, take any read of a packet with an engine at hand. It sends on all that waited before it, in front of
everything else, and lets wait less than a frame, which is the end of its own payload. If it completes no
frame then nothing waits behind it, and a payload of less than a frame that comes next goes on as it
arrived, with nothing waiting behind that either. -/
theorem run_prompt (k : Backend pool engine) (p : pool) (ssrc : UInt32) (settings : Settings)
    (hcarry : settings.carryRemainder = true) (past future : List Action) (d : Delivery)
    (buffer : Buffer)
    (hnone : ((new ssrc settings).run k p
      (past ++ .read (.ok d) buffer :: future)).2.1.counters.fallbacks = 0)
    {turns : List (Turn engine)} {f : Filter engine} {q : pool}
    (hrun : (new ssrc settings).run k p past = (turns, f, q))
    {e : engine} (hstage : (f.started k q).stage = .active e)
    {packet : Packet} (hpacket : buffer.packet? d.length = some packet)
    {r : Reading} {g : Filter engine} {q' : pool}
    (hread : f.read k q (.ok d) buffer = (r, g, q')) :
    f.Prompt buffer d packet r g ∧
      (r.analyses = [] → g.accumulator.waiting = [] ∧
        ∀ d' buffer' packet', buffer'.packet? d'.length = some packet' →
          packet'.payload.length < frameBytes →
          (g.read k q' (.ok d') buffer').1.outcome = .delivered d' ∧
            (g.read k q' (.ok d') buffer').1.buffer = buffer' ∧
            (g.read k q' (.ok d') buffer').1.analyses = [] ∧
            (g.read k q' (.ok d') buffer').2.1.accumulator.waiting = []) := by
  have hsettings := (coherent_of_run hrun).2
  have hexit := f.exit_read k q (.ok d) buffer
  rw [run_append, hrun, run_cons, act_read, hread] at hnone
  rw [hread] at hexit
  dsimp only at hnone hexit
  -- no fallback is counted before the read, and none in it
  have hafter : g.counters.fallbacks = 0 :=
    Nat.le_zero.1 (hnone ▸ fallbacks_run_le k future q' g)
  have hbefore : f.counters.fallbacks = 0 := Nat.le_zero.1 (hafter ▸ hexit.counts.2)
  have hlt : f.accumulator.waiting.length < frameBytes := by
    have hwaiting := waiting_run_lt_of_unfallen k past p (f := new ssrc settings)
      (show [].length < frameBytes by decide)
    rw [hrun] at hwaiting
    exact hwaiting hbefore
  have hprompt := hexit.prompt (by rw [hsettings]; exact hcarry) hlt hstage hpacket
    (hafter.trans hbefore.symm)
  refine ⟨hprompt, fun hnil => ?_⟩
  have hempty : g.accumulator.waiting = [] := by
    have hlength := hprompt.length
    rw [if_neg fun hframe => hprompt.completes.2 hframe hnil] at hlength
    exact List.length_eq_zero_iff.1 hlength
  refine ⟨hempty, fun d' buffer' packet' hpacket' hless => ?_⟩
  have hactive := (hexit.engine_eq hstage).2
  exact (g.exit_read k q' (.ok d') buffer').of_less (by rw [started_of_active k q' hactive]; exact hactive)
    hpacket' hless hempty

/-- Nine hundred and seventy bytes, of which ten wait. -/
def leavesTen : Incoming := .plain 1 (Bytes.zeros 970) 963

/-- Nine hundred and ninety bytes, of which forty wait behind another ten. -/
def leavesForty : Incoming := .plain 2 (Bytes.zeros 990) 963

/-- Of two packets the second sends on the ten bytes that wait behind the first. -/
theorem run_prompt_of_leavesTen :
    ∃ turns f q r g q', (new 1 carrying).run turning 0 [leavesTen.action] = (turns, f, q) ∧
      f.read turning q (.ok leavesForty.delivery) leavesForty.buffer = (r, g, q') ∧
      f.accumulator.waiting.length = 10 ∧
      f.Prompt leavesForty.buffer leavesForty.delivery leavesForty.packet r g ∧
      g.accumulator.waiting.length = 40 := by
  have hroomy : ∀ i ∈ [leavesTen, leavesForty], i.Roomy := by
    simp only [List.forall_mem_cons]
    exact ⟨Incoming.roomy_plain _ _ (by decide), Incoming.roomy_plain _ _ (by decide),
      fun i hi => absurd hi List.not_mem_nil⟩
  have hnone := fallbacks_session_of_roomy turning 0 1 carrying rfl hroomy
  have hstage : ((new 1 carrying).started turning 0).stage = .active 0 :=
    stage_started_new turning 0 1 carrying
  have hten : leavesTen.packet.payload.length = 970 := Bytes.length_zeros 970
  have hforty : leavesForty.packet.payload.length = 990 := Bytes.length_zeros 990
  -- what the packets hold is not looked at
  generalize leavesTen = i at *
  generalize leavesForty = j at *
  rcases hread : (new 1 carrying).read turning 0 (.ok i.delivery) i.buffer with ⟨r, f, q⟩
  rcases hread' : f.read turning q (.ok j.delivery) j.buffer with ⟨r', g, q'⟩
  have hrun : (new 1 carrying).run turning 0 [i.action] =
      ([.read (new 1 carrying) (.ok i.delivery) i.buffer r], f, q) := by
    rw [run_singleton, Incoming.action, act_read, hread]
  have hexit := (new 1 carrying).exit_read turning 0 (.ok i.delivery) i.buffer
  rw [hread] at hexit
  have hactive := (hexit.engine_eq hstage).2
  obtain ⟨hfirst, -⟩ :=
    run_prompt turning 0 1 carrying rfl [] _ _ _ hnone rfl hstage i.decoded hread
  obtain ⟨hsecond, -⟩ :=
    run_prompt turning 0 1 carrying rfl [i.action] _ _ _ hnone hrun
      (by rw [started_of_active turning q hactive]; exact hactive) j.decoded hread'
  have hwaits : f.accumulator.waiting.length = 10 := by
    rw [hfirst.length, hten]
    exact if_pos (by decide)
  have hwaits' : g.accumulator.waiting.length = 40 := by
    rw [hsecond.length, hwaits, hforty]
    exact if_pos (by decide)
  exact ⟨_, f, q, r', g, q', hrun, hread', hwaits, hsecond, hwaits'⟩

end Filter

end NoiseFilter
