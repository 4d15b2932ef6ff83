import NoiseFilter.Proofs.Binary.Exact
import NoiseFilter.Proofs.Stream.Independence
import NoiseFilter.Proofs.Stream.Ledger
import NoiseFilter.Proofs.Stream.Treatment

/-!
# Two thresholds

A network knows nothing of thresholds: it is asked about a frame and answers with a probability, and only
then does the engine around it compare. So of two filters that differ in their thresholds alone, the
networks go through the same states, whatever the one filter calls voice and the other does not. What a
decision changes is the sound of its own frame, and nothing comes back from there.

* Every frame that is voiced under the higher threshold is voiced under the lower (`Analysis.Laxer`), since
  comparison is transitive; this fails for thresholds that are not a number, and those compare with nothing.
* Where the decisions are the same, so are the bytes.

`Filter.run_compares` puts this together for whole runs: the courses of packets are the same by
`Filter.parallel_run`, and the frames go to one engine by `Filter.engine_run_of_started`.
-/

namespace NoiseFilter

open Binary

/-! ### One frame -/

namespace Analysis

/-- The engine heard voice. -/
def voiced (a : Analysis) : Bool :=
  match a.answer with
  | .ok verdict => verdict.voice
  | .error _ => false

/-- **A frame judged laxly and strictly**: the same frame, on which the engine fails in both judgements or
in none; what is voice to the strict one is voice to the lax one; and where they agree, the same is sent
on. -/
structure Laxer (lax strict : Analysis) : Prop where
  frame : lax.frame = strict.frame
  failure : lax.failure? = strict.failure?
  voiced : strict.voiced = true → lax.voiced = true
  output : lax.voiced = strict.voiced → lax.output = strict.output

/-- A frame is counted as voiced if it is. -/
theorem counter_eq_framesVoiced {a : Analysis} : a.counter = .framesVoiced ↔ a.voiced = true := by
  rw [counter, voiced]
  rcases a.answer with why | ⟨samples, probability, _ | _⟩ <;> simp

/-- A frame is counted as failed if the engine failed on it. -/
theorem counter_eq_frameErrors {a : Analysis} : a.counter = .frameErrors ↔ a.failure? ≠ none := by
  rw [counter, failure?]
  rcases a.answer with why | ⟨samples, probability, _ | _⟩ <;> simp

/-- **Frames judged laxly and strictly, as they are counted**: no fewer are voiced, and as many failed. -/
theorem count_of_laxer {lax strict : List Analysis} (h : List.Forall₂ Laxer lax strict) :
    (strict.map counter).count .framesVoiced ≤ (lax.map counter).count .framesVoiced ∧
      (strict.map counter).count .frameErrors = (lax.map counter).count .frameErrors := by
  induction h with
  | nil => exact ⟨Nat.le_refl _, rfl⟩
  | @cons a b lax strict hab _ ih =>
    obtain ⟨hvoiced, herrors⟩ := ih
    have hfailed : a.counter = .frameErrors ↔ b.counter = .frameErrors := by
      rw [counter_eq_frameErrors, counter_eq_frameErrors, hab.failure]
    have hheard : b.counter = .framesVoiced → a.counter = .framesVoiced := fun hb =>
      counter_eq_framesVoiced.2 (hab.voiced (counter_eq_framesVoiced.1 hb))
    simp only [List.map_cons, List.count_cons, beq_iff_eq]
    constructor
    · by_cases hb : b.counter = .framesVoiced
      · rw [if_pos hb, if_pos (hheard hb)]
        exact Nat.add_le_add_right hvoiced 1
      · rw [if_neg hb]
        exact Nat.le_add_right_of_le hvoiced
    · rw [herrors, if_congr hfailed rfl rfl]

end Analysis

/-! ### The network -/

namespace Network

variable {state : Type} (n : Network state)

/-- The state in which a frame leaves the network. -/
def next (s : state) (frame : WireFrame) : state := (n.step s (frame.decode.scale scale)).2

/-- **The state behind some frames**, the first of which finds the network at its start. -/
def behind (frames : List WireFrame) : state := frames.foldl n.next n.start

/-- **The next state has nothing to do with the threshold.** -/
theorem process_snd (s : state) (frame : Frame) (threshold : Single) :
    (n.process s frame threshold).2 = (n.step s (frame.scale scale)).2 := by
  rcases hstep : n.step s (frame.scale scale) with ⟨⟨probability, samples⟩, s'⟩
  simp only [process, hstep]
  split <;> rfl

/-- Nor have the states behind frames. -/
theorem after_backend (threshold : Single) (s : state) (frames : List WireFrame) :
    n.backend.after threshold s frames = frames.foldl n.next s := by
  have hnext : (fun s (frame : WireFrame) => (n.backend.process s frame.decode threshold).2) = n.next :=
    funext fun s => funext fun frame => n.process_snd s frame.decode threshold
  rw [Backend.after, hnext]

variable {low high : Single} (hle : low.le high = true)

include hle

/-- **A frame is judged more laxly by a lower threshold.** -/
theorem laxer_process (s : state) (frame : WireFrame) :
    Analysis.Laxer ⟨frame, low, (n.process s frame.decode low).1⟩
      ⟨frame, high, (n.process s frame.decode high).1⟩ := by
  rcases hstep : n.step s (frame.decode.scale scale) with ⟨⟨probability, samples⟩, s'⟩
  simp only [process, hstep]
  cases probability.isFinite with
  | false => exact ⟨rfl, rfl, id, fun _ => rfl⟩
  | true =>
    refine ⟨rfl, rfl, fun hhigh => Value.le_trans hle hhigh, fun hsame => ?_⟩
    -- the two answers differ in nothing but the decision
    change low.le probability = high.le probability at hsame
    simp only [Analysis.output, hsame, if_true]

/-- **Frames are judged more laxly by a lower threshold**, one by one and from the same states. -/
theorem laxer_analyse (frames : List WireFrame) : ∀ s : state,
    List.Forall₂ Analysis.Laxer (n.backend.analyse low s frames).1
      (n.backend.analyse high s frames).1 := by
  induction frames with
  | nil => exact fun s => .nil
  | cons frame frames ih =>
    intro s
    have hlow := n.process_snd s frame.decode low
    have hhigh := n.process_snd s frame.decode high
    rw [Backend.analyse_cons, Backend.analyse_cons]
    refine .cons (n.laxer_process hle s frame) ?_
    change List.Forall₂ _ (n.backend.analyse low (n.process s frame.decode low).2 frames).1
      (n.backend.analyse high (n.process s frame.decode high).2 frames).1
    rw [hlow, hhigh]
    exact ih _

end Network

namespace Filter

variable {state : Type}

/-! ### Runs -/

/-- The frames of turns side by side are the same. -/
theorem Turn.Parallel.frames_eq {engine engine' : Type} {t : Turn engine} {t' : Turn engine'}
    (h : t.Parallel t') :
    t.analyses.map Analysis.frame = t'.analyses.map Analysis.frame := by
  cases h with
  | failed => rfl
  | read twins same shown shown' =>
    refine shown.frames.trans ?_
    rw [same]
    exact shown'.frames.symm
  | drain => rfl

/-- And so are those of runs side by side. -/
theorem frames_eq_of_parallel {engine engine' : Type} {turns : List (Turn engine)}
    {turns' : List (Turn engine')} (h : List.Forall₂ Turn.Parallel turns turns') :
    (turns.flatMap Turn.analyses).map Analysis.frame =
      (turns'.flatMap Turn.analyses).map Analysis.frame := by
  induction h with
  | nil => rfl
  | cons hturn _ ih =>
    rw [List.flatMap_cons, List.flatMap_cons, List.map_append, List.map_append, hturn.frames_eq, ih]

/-- **A run under a low threshold and one under a high threshold**, around the network `n`. -/
structure Compares (n : Network state) (low high : Single) (turns turns' : List (Turn state))
    (f f' : Filter state) (frames : List WireFrame) : Prop where
  /-- packet by packet the runs take the same course, with the same frames, -/
  parallel : List.Forall₂ Turn.Parallel turns turns'
  twins : f.Twins f'
  asked : (turns.flatMap Turn.analyses).map Analysis.frame = frames
  asked' : (turns'.flatMap Turn.analyses).map Analysis.frame = frames
  /-- each of which finds the network in the same state, that behind the frames before it; -/
  answers : (turns.flatMap Turn.analyses).map Analysis.answer = frames.mapIdx fun i frame =>
    (n.process (n.behind (frames.take i)) frame.decode low).1
  answers' : (turns'.flatMap Turn.analyses).map Analysis.answer = frames.mapIdx fun i frame =>
    (n.process (n.behind (frames.take i)) frame.decode high).1
  /-- at the end the network is in the same state; -/
  state : (f.started n.backend ()).stage = .active (n.behind frames)
  state' : (f'.started n.backend ()).stage = .active (n.behind frames)
  /-- frame by frame the first run is the laxer, -/
  laxer : List.Forall₂ Analysis.Laxer (turns.flatMap Turn.analyses) (turns'.flatMap Turn.analyses)
  /-- and so it counts no fewer frames as voiced, as many as voiced or attenuated, and as many as failed -/
  voiced : f'.counters.framesVoiced ≤ f.counters.framesVoiced
  judged : f'.counters.framesVoiced + f'.counters.framesAttenuated =
    f.counters.framesVoiced + f.counters.framesAttenuated
  failed : f'.counters.frameErrors = f.counters.frameErrors

/-- **A run puts its frames to the network**, each in the state behind those before it, and counts each
under its outcome. -/
theorem run_behind (n : Network state) (ssrc : UInt32) (settings : Settings) (actions : List Action) :
    ∃ turns f frames, (new ssrc settings).run n.backend () actions = (turns, f, ()) ∧
      (turns.flatMap Turn.analyses).map Analysis.frame = frames ∧
      turns.flatMap Turn.analyses = (n.backend.analyse settings.threshold n.start frames).1 ∧
      (turns.flatMap Turn.analyses).map Analysis.answer = frames.mapIdx (fun i frame =>
        (n.process (n.behind (frames.take i)) frame.decode settings.threshold).1) ∧
      (f.started n.backend ()).stage = .active (n.behind frames) ∧
      ∀ i ∈ Counter.frames,
        f.counters.get i = ((turns.flatMap Turn.analyses).map Analysis.counter).count i := by
  have hget := get_run n.backend () (new ssrc settings) actions
  obtain ⟨hanalyses, hend⟩ := engine_run_of_started (k := n.backend) (p := ()) actions
    (stage_started_new n.backend () ssrc settings)
  rcases hrun : (new ssrc settings).run n.backend () actions with ⟨turns, f, ⟨⟩⟩
  rw [hrun] at hanalyses hend hget
  obtain ⟨frames, hframes⟩ : ∃ frames, (turns.flatMap Turn.analyses).map Analysis.frame = frames :=
    ⟨_, rfl⟩
  dsimp only at hanalyses hend
  rw [hframes] at hanalyses hend
  refine ⟨turns, f, frames, rfl, hframes, hanalyses, ?_, ?_, fun i hi => ?_⟩
  · rw [hanalyses]
    refine (n.backend.map_analyse Analysis.answer _ frames n.start).trans ?_
    simp only [Backend.answerAfter, n.after_backend]
    rfl
  · rw [hend, n.after_backend]
    rfl
  · have hstart : (new ssrc settings : Filter state).counters.get i = 0 := by cases i <;> rfl
    rw [hget i hi, hstart, Nat.zero_add]

/-- **A lower threshold makes more frames voice, and nothing else.** Two new filters around the same
network, with thresholds that compare and otherwise the same settings, go through arrivals that are alike.
Packet by packet they take the same course; the network goes through the same states and fails on the
same frames; every frame that is voiced under the higher threshold is voiced under the lower; and where
the two decide alike, the same bytes are sent on. -/
theorem run_compares (n : Network state) (ssrc : UInt32) (settings : Settings) {low high : Single}
    (hle : low.le high = true) {actions actions' : List Action}
    (halike : List.Forall₂ Action.Alike actions actions') :
    ∃ turns f turns' f' frames,
      (new ssrc { settings with threshold := low }).run n.backend () actions = (turns, f, ()) ∧
      (new ssrc { settings with threshold := high }).run n.backend () actions' = (turns', f', ()) ∧
      Compares n low high turns turns' f f' frames := by
  have hnew : (new ssrc { settings with threshold := low } : Filter state).Twins
      (new ssrc { settings with threshold := high } : Filter state) := ⟨rfl, rfl, rfl, rfl, rfl, rfl⟩
  have hactive : ∀ threshold, ((new ssrc { settings with threshold }).started n.backend
      ()).stage.status = .active := fun _ => rfl
  have hruns := parallel_run halike () () hnew (hactive low) (hactive high)
  obtain ⟨turns, f, frames, hrun, hasked, hanalyses, hanswers, hstate, hget⟩ :=
    run_behind n ssrc { settings with threshold := low } actions
  obtain ⟨turns', f', frames', hrun', hasked', hanalyses', hanswers', hstate', hget'⟩ :=
    run_behind n ssrc { settings with threshold := high } actions'
  rw [hrun, hrun'] at hruns
  obtain ⟨hparallel, htwins⟩ := hruns
  obtain rfl : frames = frames' := by
    rw [← hasked, ← hasked']
    exact frames_eq_of_parallel hparallel
  have hlaxer : List.Forall₂ Analysis.Laxer (turns.flatMap Turn.analyses)
      (turns'.flatMap Turn.analyses) := by
    rw [hanalyses, hanalyses']
    exact n.laxer_analyse hle frames n.start
  obtain ⟨hvoiced, hfailed⟩ := Analysis.count_of_laxer hlaxer
  rw [← hget .framesVoiced (by decide), ← hget' .framesVoiced (by decide)] at hvoiced
  rw [← hget .frameErrors (by decide), ← hget' .frameErrors (by decide)] at hfailed
  have hall : f.counters.frames = f'.counters.frames := htwins.frames
  rw [Counters.frames, Counters.frames] at hall
  simp only [Counters.get] at hvoiced hfailed
  exact ⟨turns, f, turns', f', frames, hrun, hrun', hparallel, htwins, hasked, hasked', hanswers,
    hanswers', hstate, hstate', hlaxer, hvoiced, by omega, hfailed⟩

/-- A network that is undecided about every frame, and counts them. -/
def undecided : Network Nat where
  start := 0
  step s frame := ((.ofRatio false 1 2, frame), s + 1)

/-- Three packets with a threshold that an undecided network reaches, and with one that it does not: it has
counted the same frames. -/
theorem run_compares_of_undecided :
    ∃ turns f turns' f' frames,
      (new 1 { carrying with threshold := .ofRatio false 1 4 }).run undecided.backend ()
        (Incoming.session threePackets) = (turns, f, ()) ∧
      (new 1 { carrying with threshold := .ofRatio false 3 4 }).run undecided.backend ()
        (Incoming.session threePackets) = (turns', f', ()) ∧
      Compares undecided (.ofRatio false 1 4) (.ofRatio false 3 4) turns turns' f f' frames :=
  run_compares undecided 1 carrying (by decide) (List.forall₂_same.2 fun a _ => .refl a)

end Filter

end NoiseFilter
