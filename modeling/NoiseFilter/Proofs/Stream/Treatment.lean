import Mathlib.Data.List.Forall2
import NoiseFilter.Proofs.Pcm.Attenuation
import NoiseFilter.Proofs.Stream.Conservation

/-!
# The treatment of frames

What `Filter.suppress` does is a loop, with an engine that changes as it goes. Here it is said without
the loop. The waiting bytes and the payload are cut in **one** way into frames and a rest of less than a
frame; each frame is put to the engine as the frames before it have left it (`Backend.answerAfter`); and
what goes out in its place is settled by the frame and the answer alone (`WireFrame.Treats`):

| the answer | what goes out |
|---|---|
| voice | the engine's samples, each rounded to a sample of the wire (`Sample.Quantizes`) |
| no voice | the samples that arrived, each a tenth as loud (`Sample.Faded`) |
| a failure | the frame, byte for byte |

All three are about the samples in what arrived and in what goes out, and none about how they get there.

`Filter.Treatment` puts this down part by part. That the engine was asked about these frames and about
nothing else is said of an engine that keeps a log (`Backend.logged`), which answers as the engine does.

What goes out for a frame is as long as the frame, so what an engine makes of one frame shows in no
other: two engines that agree on the `i`-th frame agree on the `i`-th block of the payload. And a failure
is an answer like the others: `Filter.engine_run` follows one engine through a run of reads, each frame
put to it as all the frames before have left it, those it failed on among them.
-/

namespace NoiseFilter

open Rtp

variable {pool engine : Type}

/-! ### One frame -/

/-- **What goes out for a frame**, given what the engine said about it. -/
inductive WireFrame.Treats (frame : WireFrame) : Except Failure Verdict → WireFrame → Prop
  /-- The engine heard voice, and its samples go out. -/
  | voiced {verdict : Verdict} {out : WireFrame} : verdict.voice = true →
      List.Forall₂ Sample.Quantizes verdict.samples.samples (Sample.read out.bytes) →
        Treats frame (.ok verdict) out
  /-- It heard none, and the samples that arrived go out a tenth as loud, whatever its own are. -/
  | faded {verdict : Verdict} {out : WireFrame} : verdict.voice = false →
      List.Forall₂ Sample.Faded (Sample.read frame.bytes) (Sample.read out.bytes) →
        Treats frame (.ok verdict) out
  /-- It failed, and the frame goes out as it arrived. -/
  | failed {why : Failure} : Treats frame (.error why) frame

/-- A frame is settled by its samples. -/
theorem WireFrame.eq_of_read {frame frame' : WireFrame}
    (h : Sample.read frame.bytes = Sample.read frame'.bytes) : frame = frame' := by
  obtain ⟨bytes, hlen⟩ := frame
  obtain ⟨bytes', hlen'⟩ := frame'
  rw [WireFrame.mk.injEq, ← Sample.spell_read bytes (by rw [hlen]; rfl), h]
  exact Sample.spell_read bytes' (by rw [hlen']; rfl)

/-- **One frame goes out for a frame.** -/
theorem WireFrame.Treats.unique {frame out out' : WireFrame} {answer : Except Failure Verdict}
    (h : frame.Treats answer out) (h' : frame.Treats answer out') : out = out' := by
  rcases h with ⟨hvoice, hsamples⟩ | ⟨hvoice, hsamples⟩ | _
  · rcases h' with ⟨-, hsamples'⟩ | ⟨hnone, -⟩
    · have hunique : Relator.RightUnique Sample.Quantizes := fun _ _ _ => Sample.Quantizes.unique
      exact eq_of_read (hunique.forall₂ hsamples hsamples')
    · rw [hvoice] at hnone
      cases hnone
  · rcases h' with ⟨hsome, -⟩ | ⟨-, hsamples'⟩
    · rw [hvoice] at hsome
      cases hsome
    · have hunique : Relator.RightUnique Sample.Faded := fun _ _ _ => Sample.Faded.unique
      exact eq_of_read (hunique.forall₂ hsamples hsamples')
  · cases h'
    rfl

/-- **What is sent on for a frame is what goes out for it.** A frame that the engine failed on is decoded and
encoded on the way, which gives it back byte for byte. -/
theorem Analysis.output_treats (a : Analysis) : a.frame.Treats a.answer a.output := by
  rcases hanswer : a.answer with why | verdict
  · rw [a.output_of_error hanswer]
    exact .failed
  · simp only [output, hanswer]
    rcases hvoice : verdict.voice
    · rw [if_neg Bool.false_ne_true]
      exact .faded hvoice a.frame.faded_scale
    · rw [if_pos rfl]
      exact .voiced hvoice verdict.samples.quantizes_encode

/-- **The blocks of a payload are its frames.** -/
theorem WireFrame.block_join (frames : List WireFrame) (rest : Bytes) :
    ∀ (i : Nat) (hi : i < frames.length),
      ((join frames ++ rest).drop (frameBytes * i)).take frameBytes = frames[i].bytes := by
  induction frames with
  | nil => exact fun i hi => absurd hi (Nat.not_lt_zero i)
  | cons frame frames ih =>
    rintro (_ | i) hi
    · rw [Nat.mul_zero, List.drop_zero, join_cons, List.append_assoc]
      exact List.take_left' frame.length_bytes
    · rw [Nat.mul_succ, Nat.add_comm, ← List.drop_drop, join_cons, List.append_assoc,
        List.drop_left' frame.length_bytes]
      exact ih i (Nat.lt_of_succ_lt_succ hi)

/-! ### Frames in order -/

/-- What an engine was asked: a frame, and the threshold to judge it by. -/
structure Question where
  frame : Frame
  threshold : Binary.Single

namespace Backend

/-- **The engine after some frames**, whatever it said about them. -/
def after (k : Backend pool engine) (threshold : Binary.Single) (e : engine)
    (frames : List WireFrame) : engine :=
  frames.foldl (fun e frame => (k.process e frame.decode threshold).2) e

/-- **What the engine says about a frame** that comes after the frames `past`. -/
def answerAfter (k : Backend pool engine) (threshold : Binary.Single) (e : engine)
    (past : List WireFrame) (frame : WireFrame) : Except Failure Verdict :=
  (k.process (k.after threshold e past) frame.decode threshold).1

/-- Frames are analysed in order, each as the ones before it have left the engine. `what` is what is
read off an analysis. -/
theorem map_analyse {α : Type} (what : Analysis → α) (k : Backend pool engine)
    (threshold : Binary.Single) (frames : List WireFrame) : ∀ e,
      (k.analyse threshold e frames).1.map what =
        frames.mapIdx fun i frame =>
          what ⟨frame, threshold, k.answerAfter threshold e (frames.take i) frame⟩ := by
  induction frames with
  | nil => exact fun e => rfl
  | cons frame frames ih =>
    intro e
    rw [k.analyse_cons, List.map_cons, ih, List.mapIdx_cons]
    rfl

/-- The engine is left as its frames leave it. -/
theorem engine_analyse (k : Backend pool engine) (threshold : Binary.Single)
    (frames : List WireFrame) : ∀ e, (k.analyse threshold e frames).2 = k.after threshold e frames := by
  induction frames with
  | nil => exact fun e => rfl
  | cons frame frames ih => exact fun e => ih _

/-- **The same engines, each with a log** of what it was asked. -/
def logged (k : Backend pool engine) : Backend pool (engine × List Question) where
  create p := ((k.create p).1.map (·, []), (k.create p).2)
  process e frame threshold :=
    ((k.process e.1 frame threshold).1,
      (k.process e.1 frame threshold).2, e.2 ++ [⟨frame, threshold⟩])

/-- **An engine with a log** answers as it would without, and has the frames in its log, in order. -/
theorem analyse_logged (k : Backend pool engine) (threshold : Binary.Single)
    (frames : List WireFrame) : ∀ (e : engine) (log : List Question),
      k.logged.analyse threshold (e, log) frames = ((k.analyse threshold e frames).1,
        (k.analyse threshold e frames).2, log ++ frames.map fun frame => ⟨frame.decode, threshold⟩) := by
  induction frames with
  | nil =>
    intro e log
    rw [List.map_nil, List.append_nil]
    rfl
  | cons frame frames ih =>
    intro e log
    rw [analyse_cons]
    simp only [logged] at ih ⊢
    rw [ih, analyse_cons, List.map_cons, List.append_assoc, List.singleton_append]

end Backend

namespace Filter

/-! ### One payload -/

/-- The same filter, for an engine with a log. -/
def logging (f : Filter engine) (e : engine) (log : List Question) :
    Filter (engine × List Question) :=
  ⟨f.ssrc, f.settings, .active (e, log), f.accumulator, f.counters⟩

/-- **The treatment of a payload**, behind what waits: the two are cut into `frames` and `rest`, and `outs` go
out for the frames. -/
structure Treatment (k : Backend pool engine) (f : Filter engine) (e : engine) (payload : Bytes)
    (frames outs : List WireFrame) (rest : Bytes) : Prop where
  /-- The frames and the rest are what there is, in order. -/
  cut : WireFrame.join frames ++ rest = f.accumulator.waiting ++ payload
  rest_lt : rest.length < frameBytes
  /-- The engine is asked about each frame once, in order, and about nothing else. -/
  asked : ∀ log, ((f.logging e log).suppress k.logged (e, log) payload).engine.2 =
    log ++ frames.map fun frame => ⟨frame.decode, f.settings.threshold⟩
  /-- It is asked about the samples that arrived, full scale being one. -/
  heard : ∀ frame ∈ frames,
    List.Forall₂ Sample.StandsFor (Sample.read frame.bytes) frame.decode.samples
  /-- The log is all that it adds. -/
  unmoved : ∀ log, ((f.logging e log).suppress k.logged (e, log) payload).payload =
    (f.suppress k e payload).payload
  /-- After all frames the engine is as they have left it. -/
  engine : (f.suppress k e payload).engine = k.after f.settings.threshold e frames
  length_outs : outs.length = frames.length
  /-- What goes out for a frame is settled by the frame and the answer. -/
  treats : ∀ i (hi : i < frames.length) (hi' : i < outs.length),
    frames[i].Treats (k.answerAfter f.settings.threshold e (frames.take i) frames[i]) outs[i]
  /-- That is sent, in order, and the rest behind it unless it waits. -/
  sent : (f.suppress k e payload).payload =
    WireFrame.join outs ++ if f.settings.carryRemainder ∧ frames ≠ [] then [] else rest
  waiting : (f.suppress k e payload).accumulator.waiting =
    if f.settings.carryRemainder ∧ frames ≠ [] then rest else []

section Suppress

variable (k : Backend pool engine) (f : Filter engine) (e : engine) (payload : Bytes)

/-- **The rest waits** if that is wanted and there was a frame, and goes out otherwise. -/
theorem suppress_eq_ite :
    (f.suppress k e payload).payload = f.processed k e payload ++
        (if f.settings.carryRemainder ∧ (f.accumulator.feed payload).1 ≠ [] then []
          else (f.accumulator.feed payload).2.waiting) ∧
      (f.suppress k e payload).accumulator.waiting =
        if f.settings.carryRemainder ∧ (f.accumulator.feed payload).1 ≠ [] then
          (f.accumulator.feed payload).2.waiting else [] := by
  have hframe : (f.accumulator.feed payload).1 ≠ [] ↔
      frameBytes ≤ (f.accumulator.waiting ++ payload).length := by
    rw [← List.length_pos_iff, (f.accumulator.length_feed payload).1, Nat.div_pos_iff]
    exact and_iff_right (by decide)
  rcases f.suppress_cases k e payload with ⟨hwaits, hpayload, hwaiting⟩ |
    ⟨hflushes, hpayload, hwaiting⟩
  · rw [← hframe] at hwaits
    rw [hpayload, hwaiting, if_pos hwaits, if_pos hwaits, List.append_nil]
    exact ⟨rfl, rfl⟩
  · have hno : ¬ (f.settings.carryRemainder = true ∧ (f.accumulator.feed payload).1 ≠ []) := by
      rintro ⟨hcarry, hsome⟩
      rcases hflushes with hfalse | hshort
      · rw [hcarry] at hfalse
        cases hfalse
      · exact absurd (hframe.1 hsome) (Nat.not_le.2 hshort)
    rw [hpayload, hwaiting, if_neg hno, if_neg hno]
    exact ⟨rfl, rfl⟩

/-- The engine with a log is put the same frames, and what it answers is the same. -/
theorem suppress_logging (log : List Question) :
    ((f.logging e log).suppress k.logged (e, log) payload).payload =
        (f.suppress k e payload).payload ∧
      ((f.logging e log).suppress k.logged (e, log) payload).engine.2 =
        log ++ (f.accumulator.feed payload).1.map fun frame =>
          ⟨frame.decode, f.settings.threshold⟩ := by
  have hlogged := k.analyse_logged f.settings.threshold (f.accumulator.feed payload).1 e log
  constructor
  · rw [(suppress_eq_ite _ _ _ _).1, (suppress_eq_ite _ _ _ _).1, processed, processed,
      analyses_suppress, analyses_suppress]
    exact congrArg (fun analyses => WireFrame.join (analyses.1.map Analysis.output) ++ _) hlogged
  · rw [engine_suppress]
    exact congrArg (·.2.2) hlogged

/-- **Every payload is treated.** -/
theorem treatment_feed : Treatment k f e payload (f.accumulator.feed payload).1
    ((f.suppress k e payload).analyses.map Analysis.output) (f.accumulator.feed payload).2.waiting where
  cut := f.accumulator.join_feed payload
  rest_lt := Accumulator.cut_rest_lt _
  asked log := (f.suppress_logging k e payload log).2
  heard frame _ := frame.standsFor_decode
  unmoved log := (f.suppress_logging k e payload log).1
  engine := by rw [engine_suppress, k.engine_analyse]
  length_outs := by rw [analyses_suppress, k.map_analyse Analysis.output, List.length_mapIdx]
  treats i hi hi' := by
    simp only [analyses_suppress, k.map_analyse Analysis.output, List.getElem_mapIdx]
    exact Analysis.output_treats ⟨_, f.settings.threshold, _⟩
  sent := (f.suppress_eq_ite k e payload).1
  waiting := (f.suppress_eq_ite k e payload).2

variable {k f e payload} {frames outs : List WireFrame} {rest : Bytes}

/-- There is only one treatment. -/
theorem Treatment.unique (h : Treatment k f e payload frames outs rest) :
    frames = (f.accumulator.feed payload).1 ∧
      outs = (f.suppress k e payload).analyses.map Analysis.output ∧
        rest = (f.accumulator.feed payload).2.waiting := by
  have hfeed := f.treatment_feed k e payload
  obtain ⟨rfl, rfl⟩ : frames = (f.accumulator.feed payload).1 ∧
      rest = (f.accumulator.feed payload).2.waiting := by
    rw [Accumulator.feed, ← h.cut, Accumulator.cut_join_append frames h.rest_lt]
    exact ⟨rfl, rfl⟩
  refine ⟨rfl, List.ext_getElem (h.length_outs.trans hfeed.length_outs.symm) fun i hi hi' => ?_, rfl⟩
  have hframe := h.length_outs ▸ hi
  exact (h.treats i hframe hi).unique (hfeed.treats i hframe hi')

/-- **A block of the payload is what goes out for its frame**, and depends on nothing else. -/
theorem Treatment.block (h : Treatment k f e payload frames outs rest) (i : Nat)
    (hi : i < frames.length) : ∃ out : WireFrame,
      frames[i].Treats (k.answerAfter f.settings.threshold e (frames.take i) frames[i]) out ∧
        ((f.suppress k e payload).payload.drop (frameBytes * i)).take frameBytes = out.bytes := by
  have hi' : i < outs.length := h.length_outs.symm ▸ hi
  refine ⟨outs[i], h.treats i hi hi', ?_⟩
  rw [h.sent, WireFrame.block_join _ _ i hi']

end Suppress

/-! ### One engine for all reads -/

section Run

variable {k : Backend pool engine} {p : pool} {f g : Filter engine} {e : engine}

/-- **A read puts its frames to the engine that is there**, and leaves it as they leave it. -/
theorem Exit.engine_eq {buffer : Buffer} {d : Delivery} {r : Reading}
    (h : f.Exit k p buffer (.ok d) r g) (hstage : (f.started k p).stage = .active e) :
    r.analyses = (k.analyse f.settings.threshold e (r.analyses.map Analysis.frame)).1 ∧
      g.stage = .active (k.after f.settings.threshold e (r.analyses.map Analysis.frame)) := by
  have hanalysed : ∀ {e' packet}, (f.started k p).Takes e' d buffer packet →
      ((f.started k p).suppress k e' packet.payload).analyses =
          (k.analyse f.settings.threshold e
            (((f.started k p).suppress k e' packet.payload).analyses.map Analysis.frame)).1 ∧
        ((f.started k p).analysed k e' packet.payload).stage =
          .active (k.after f.settings.threshold e
            (((f.started k p).suppress k e' packet.payload).analyses.map Analysis.frame)) := by
    intro e' packet htakes
    obtain rfl := htakes.engine_unique hstage
    rw [analysed, engine_suppress, analyses_suppress, k.map_frame_analyse, started_settings,
      k.engine_analyse]
    exact ⟨rfl, rfl⟩
  cases h with
  | degraded _ notices hquiet hidle => exact absurd hstage (hidle e)
  | overrun | unread | short => exact ⟨rfl, hstage⟩
  | suppressed _ e' packet data notices hquiet htakes => exact hanalysed htakes
  | gaveUp _ e' packet notices hquiet htakes => exact hanalysed htakes
  | released _ e' packet data notices hquiet htakes => exact hanalysed htakes
  | dropped _ e' packet notices hdrop htakes => exact hanalysed htakes

/-- An action puts its frames to the engine that is to be had, and leaves it as they leave it. -/
theorem engine_act (p : pool) (hstage : (f.started k p).stage = .active e) (a : Action) :
    (f.act k p a).1.analyses = (k.analyse f.settings.threshold e
        ((f.act k p a).1.analyses.map Analysis.frame)).1 ∧
      ((f.act k p a).2.1.started k (f.act k p a).2.2).stage =
        .active (k.after f.settings.threshold e ((f.act k p a).1.analyses.map Analysis.frame)) := by
  rcases a with ⟨why | d, buffer⟩ | _
  · exact ⟨rfl, hstage⟩
  · obtain ⟨hanalyses, hafter⟩ := (f.exit_read k p (.ok d) buffer).engine_eq hstage
    have hstarted := started_of_active k (f.read k p (.ok d) buffer).2.2 hafter
    exact ⟨hanalyses, (congrArg Filter.stage hstarted).trans hafter⟩
  · exact ⟨rfl, (start_congr k p (f := f.drain.2) (g := f) rfl).1.trans hstage⟩

/-- **One engine for all reads of a run**, from the first delivery on: it is put every frame as all the
frames before have left it. -/
theorem engine_run_of_started (actions : List Action) :
    ∀ {p : pool} {f : Filter engine} {e : engine}, (f.started k p).stage = .active e →
      (f.run k p actions).1.flatMap Turn.analyses = (k.analyse f.settings.threshold e
          (((f.run k p actions).1.flatMap Turn.analyses).map Analysis.frame)).1 ∧
        ((f.run k p actions).2.1.started k (f.run k p actions).2.2).stage =
          .active (k.after f.settings.threshold e
            (((f.run k p actions).1.flatMap Turn.analyses).map Analysis.frame)) := by
  induction actions with
  | nil => exact fun hstage => ⟨rfl, hstage⟩
  | cons a actions ih =>
    intro p f e hstage
    obtain ⟨hturn, hafter⟩ := engine_act p hstage a
    obtain ⟨hrest, hend⟩ := ih (p := (f.act k p a).2.2) hafter
    rw [settings_act] at hrest hend
    rw [run_cons, List.flatMap_cons, List.map_append, k.analyse_append, k.engine_analyse, ← hturn]
    refine ⟨congrArg (_ ++ ·) hrest, hend.trans (congrArg Stage.active ?_)⟩
    exact List.foldl_append.symm

/-- An engine once there is never given up. -/
theorem active_act (p : pool) (f : Filter engine) (a : Action) (h : ∃ e, f.stage = .active e) :
    ∃ e, (f.act k p a).2.1.stage = .active e := by
  obtain ⟨e, hstage⟩ := h
  rcases a with ⟨why | d, buffer⟩ | _
  · exact ⟨e, hstage⟩
  · have hstarted : (f.started k p).stage = .active e := by
      rw [started_of_active k p hstage, hstage]
    exact ⟨_, ((f.exit_read k p (.ok d) buffer).engine_eq hstarted).2⟩
  · exact ⟨e, hstage⟩

/-- An engine that is there is never replaced. -/
theorem engine_run (actions : List Action) {p : pool} {f : Filter engine} {e : engine}
    (hstage : f.stage = .active e) :
    (f.run k p actions).1.flatMap Turn.analyses = (k.analyse f.settings.threshold e
        (((f.run k p actions).1.flatMap Turn.analyses).map Analysis.frame)).1 ∧
      (f.run k p actions).2.1.stage = .active (k.after f.settings.threshold e
        (((f.run k p actions).1.flatMap Turn.analyses).map Analysis.frame)) := by
  obtain ⟨hanalyses, hend⟩ := engine_run_of_started (k := k) (p := p) actions
    (by rw [started_of_active k p hstage, hstage])
  obtain ⟨e', hstage'⟩ := run_preserves (P := fun f => ∃ e, f.stage = .active e)
    (fun p f a => active_act (k := k) p f a) actions p f ⟨e, hstage⟩
  rw [started_of_active k _ hstage'] at hend
  exact ⟨hanalyses, hend⟩

end Run

/-- **What becomes of a payload.** Waiting bytes and payload are treated, in the one way there is to cut
them into frames and a rest, and every block of what goes out is what goes out for its frame. So an
engine that agrees with this one on the `i`-th frame sends the same `i`-th block, whatever it makes of
the other frames. And once there is an engine it is used for every frame of every later read, as all
the frames before have left it. -/
theorem suppress_treats (k : Backend pool engine) (f : Filter engine) (e : engine) (payload : Bytes) :
    ∃ frames outs rest, Treatment k f e payload frames outs rest ∧
      (∀ frames' outs' rest', Treatment k f e payload frames' outs' rest' →
        frames' = frames ∧ outs' = outs ∧ rest' = rest) ∧
      (∀ i (hi : i < frames.length), ∃ out : WireFrame,
        frames[i].Treats (k.answerAfter f.settings.threshold e (frames.take i) frames[i]) out ∧
          ((f.suppress k e payload).payload.drop (frameBytes * i)).take frameBytes = out.bytes) ∧
      (∀ {pool' engine' : Type} (k' : Backend pool' engine') (f' : Filter engine') (e' : engine'),
        f'.accumulator = f.accumulator → ∀ i (hi : i < frames.length),
          k'.answerAfter f'.settings.threshold e' (frames.take i) frames[i] =
              k.answerAfter f.settings.threshold e (frames.take i) frames[i] →
            ((f'.suppress k' e' payload).payload.drop (frameBytes * i)).take frameBytes =
              ((f.suppress k e payload).payload.drop (frameBytes * i)).take frameBytes) ∧
      ∀ (p : pool) (actions : List Action), f.stage = .active e →
        ((f.run k p actions).1.flatMap Turn.analyses).map Analysis.answer =
            (((f.run k p actions).1.flatMap Turn.analyses).map Analysis.frame).mapIdx
              (fun i frame => k.answerAfter f.settings.threshold e
                ((((f.run k p actions).1.flatMap Turn.analyses).map Analysis.frame).take i) frame) ∧
          (f.run k p actions).2.1.stage = .active (k.after f.settings.threshold e
            (((f.run k p actions).1.flatMap Turn.analyses).map Analysis.frame)) := by
  have htreats := f.treatment_feed k e payload
  refine ⟨_, _, _, htreats, fun _ _ _ h => h.unique, htreats.block, ?_, fun p actions hstage => ?_⟩
  · intro pool' engine' k' f' e' haccumulator i hi hanswer
    have htreats' := f'.treatment_feed k' e' payload
    rw [haccumulator] at htreats'
    obtain ⟨out, hout, hblock⟩ := htreats.block i hi
    obtain ⟨out', hout', hblock'⟩ := htreats'.block i hi
    rw [hanswer] at hout'
    rw [hblock, hblock', hout'.unique hout]
  · obtain ⟨hanalyses, hend⟩ := engine_run (k := k) (p := p) actions hstage
    refine ⟨?_, hend⟩
    conv => lhs; rw [hanalyses, k.map_analyse Analysis.answer]

end Filter

end NoiseFilter
