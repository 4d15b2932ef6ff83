import NoiseFilter.Proofs.Stream.Backlog

/-!
# However a stream is split into packets

Where incomplete frames wait, the packets of a stream are no more than its transport. What leaves the
filter in the end is `Backend.clean` of the whole stream: its frames, first to last, each as the engine
leaves it, and the bytes that fill no frame as they are. So the same comes of every way to split the
stream into packets (`Filter.run_session_eq`), and the engine is asked the same questions.

That holds for packets of a frame or more, of which only the last may be shorter: a short packet sends
on what waits, and would end a frame early. The last one may, since the stream ends with it. Where
incomplete frames do not wait, the packets that end no frame early are those made of frames; that is
`Settings.KeepsFrames`, and `Filter.flow_eq_clean` holds in both cases.
-/

namespace NoiseFilter

open Rtp

variable {pool engine : Type}

/-- **Cleaning goes on where it stopped**: after the frames of `a` the rest of `a` is cleaned together
with `b`, by the engine as the frames of `a` have left it. -/
theorem Backend.clean_append (k : Backend pool engine) (threshold : Binary.Single) (e : engine)
    (a b : Bytes) :
    k.clean threshold e (a ++ b) =
      WireFrame.join ((k.analyse threshold e (Accumulator.cut a).1).1.map Analysis.output) ++
        k.clean threshold (k.analyse threshold e (Accumulator.cut a).1).2
          ((Accumulator.cut a).2 ++ b) := by
  rw [clean, clean, Accumulator.cut_append, k.analyse_append, List.map_append, WireFrame.join_append,
    List.append_assoc]

/-- The frames of `a` are analysed first, and then those that are complete with `b`. -/
theorem Backend.analyse_cut_append (k : Backend pool engine) (threshold : Binary.Single)
    (e : engine) (a b : Bytes) :
    (k.analyse threshold e (Accumulator.cut (a ++ b)).1).1 =
      (k.analyse threshold e (Accumulator.cut a).1).1 ++
        (k.analyse threshold (k.analyse threshold e (Accumulator.cut a).1).2
          (Accumulator.cut ((Accumulator.cut a).2 ++ b)).1).1 := by
  rw [Accumulator.cut_append, k.analyse_append]

/-- **A payload of this length keeps frames together**: it ends none early. Where incomplete frames wait it
has a frame or more, and where they do not it consists of frames. -/
def Settings.KeepsFrames (s : Settings) (length : Nat) : Prop :=
  if s.carryRemainder then frameBytes ≤ length else frameBytes ∣ length

instance (s : Settings) (length : Nat) : Decidable (s.KeepsFrames length) :=
  inferInstanceAs (Decidable (if s.carryRemainder then frameBytes ≤ length else frameBytes ∣ length))

namespace Filter

section Handle

variable (k : Backend pool engine) {f : Filter engine} (e : engine) {payload : Bytes}

variable (payload) in
/-- **What is sent on and what waits** are together the cleaned bytes, the frames are theirs, and the
engine is as they leave it. -/
theorem handle_eq_clean (hf : f.Coherent) :
    (f.handle k e payload).payload ++ (f.handle k e payload).accumulator.waiting =
        k.clean f.settings.threshold e (f.accumulator.waiting ++ payload) ∧
      ((f.handle k e payload).analyses, (f.handle k e payload).engine) =
        k.analyse f.settings.threshold e
          (Accumulator.cut (f.accumulator.waiting ++ payload)).1 := by
  cases h : f.isShort payload with
  | true =>
    have hlt := length_lt_of_isShort h
    rw [handle_of_isShort k e h, hf.waiting_eq_nil h, List.nil_append, k.clean_of_lt _ _ hlt,
      Accumulator.cut_of_lt hlt]
    exact ⟨List.append_nil _, rfl⟩
  | false =>
    have hprocessed : f.processed k e payload = WireFrame.join ((k.analyse f.settings.threshold e
        (Accumulator.cut (f.accumulator.waiting ++ payload)).1).1.map Analysis.output) := by
      rw [processed, analyses_suppress]
      rfl
    rw [handle_of_not_isShort k e h]
    refine ⟨?_, Prod.ext (f.analyses_suppress k e payload) (f.engine_suppress k e payload)⟩
    -- the rest waits, or goes out after the frames
    rcases f.suppress_cases k e payload with ⟨-, hpayload, hwaiting⟩ | ⟨-, hpayload, hwaiting⟩
    · rw [hpayload, hwaiting, hprocessed]
      rfl
    · rw [hpayload, hwaiting, hprocessed]
      exact List.append_nil _

/-- **Behind a payload that keeps frames together** waits what fills no frame. -/
theorem waiting_handle_of_keeps (hf : f.Coherent) (hkeeps : f.settings.KeepsFrames payload.length) :
    (f.handle k e payload).accumulator.waiting =
      (Accumulator.cut (f.accumulator.waiting ++ payload)).2 := by
  rw [Settings.KeepsFrames] at hkeeps
  cases hcarry : f.settings.carryRemainder with
  | true =>
    rw [hcarry, if_pos rfl] at hkeeps
    have hframe : frameBytes ≤ (f.accumulator.waiting ++ payload).length := by
      rw [List.length_append]
      omega
    rw [handle_of_not_isShort k e (isShort_eq_false hkeeps),
      (f.suppress_of_waits k e payload hcarry hframe).2]
    rfl
  | false =>
    -- nothing waits, and nothing is left of whole frames
    rw [hcarry, if_neg Bool.false_ne_true] at hkeeps
    have hnone : (Accumulator.cut payload).2 = [] := by
      rw [← List.length_eq_zero_iff, (Accumulator.length_cut payload).2]
      exact Nat.mod_eq_zero_of_dvd hkeeps
    rw [hf.flushed hcarry, List.nil_append, hnone]
    exact (hf.handled k e payload).flushed hcarry

end Handle

/-- **A flow cleans its stream**, if all payloads but the last keep frames together. -/
theorem flow_eq_clean (k : Backend pool engine) (payloads : List Bytes) :
    ∀ {f : Filter engine} (e : engine), f.Coherent → f.accumulator.waiting.length < frameBytes →
      (∀ payload ∈ payloads.dropLast, f.settings.KeepsFrames payload.length) →
      (f.flow k e payloads).sent.flatten ++ (f.flow k e payloads).filter.accumulator.waiting =
          k.clean f.settings.threshold e (f.accumulator.waiting ++ payloads.flatten) ∧
        (f.flow k e payloads).analyses = (k.analyse f.settings.threshold e
          (Accumulator.cut (f.accumulator.waiting ++ payloads.flatten)).1).1 := by
  induction payloads with
  | nil =>
    intro f e _ hlt _
    rw [List.flatten_nil, List.append_nil, k.clean_of_lt _ _ hlt, Accumulator.cut_of_lt hlt]
    exact ⟨rfl, rfl⟩
  | cons payload payloads ih =>
    intro f e hf hlt hkeeps
    obtain ⟨hclean, hanalysed⟩ := handle_eq_clean k e payload hf
    obtain ⟨hanalyses, hengine⟩ := Prod.mk.inj hanalysed
    cases payloads with
    | nil =>
      rw [List.flatten_cons, List.flatten_nil, List.append_nil, ← hclean, ← hanalyses]
      exact ⟨congrArg (· ++ _) (List.append_nil _), List.append_nil _⟩
    | cons payload' payloads =>
      rw [List.dropLast_cons_cons] at hkeeps
      obtain ⟨hpayload, hrest⟩ := List.forall_mem_cons.1 hkeeps
      have hwaiting := waiting_handle_of_keeps k e hf hpayload
      rw [hwaiting, Backend.clean, List.append_cancel_right_eq] at hclean
      obtain ⟨hclean', hanalyses'⟩ := ih (f.handle k e payload).engine (hf.handled k e payload)
        (waiting_handle_lt k e hlt) hrest
      obtain ⟨tail, htail⟩ : ∃ tail, payload' :: payloads = tail := ⟨_, rfl⟩
      change _ = k.clean f.settings.threshold _ ((f.handle k e payload).accumulator.waiting ++ _)
        at hclean'
      change _ = (k.analyse f.settings.threshold _ (Accumulator.cut
        ((f.handle k e payload).accumulator.waiting ++ _)).1).1 at hanalyses'
      rw [htail] at hclean' hanalyses' ⊢
      rw [List.flatten_cons, ← List.append_assoc]
      refine ⟨?_, ?_⟩
      · rw [flow, List.flatten_cons, List.append_assoc, hclean',
          k.clean_append _ e (f.accumulator.waiting ++ payload), hclean, hwaiting, hengine]
      · rw [flow, hanalyses', k.analyse_cut_append _ e (f.accumulator.waiting ++ payload),
          hanalyses, hwaiting, hengine]

/-! ### Sessions -/

/-- **Packets read one after the other, and then the drain.** -/
def Incoming.session (arrivals : List Incoming) : List Action := arrivals.map Incoming.action ++ [.drain]

/-- **What leaves a new filter in a session** without a fallback: the stream, cleaned if there is an
engine to be had. -/
theorem run_session (k : Backend pool engine) (p : pool) (ssrc : UInt32) {settings : Settings}
    {arrivals : List Incoming} (hcarry : settings.carryRemainder = true)
    (hlong : ∀ i ∈ arrivals.dropLast, frameBytes ≤ i.payload.length)
    (hnone : ((new ssrc settings).run k p
      (Incoming.session arrivals)).2.1.counters.fallbacks = 0) :
    (∀ e, (k.create p).1 = .ok e →
        ((new ssrc settings).run k p (Incoming.session arrivals)).1.flatMap Turn.delivered =
            k.clean settings.threshold e (arrivals.map Incoming.payload).flatten ∧
          ((new ssrc settings).run k p (Incoming.session arrivals)).1.flatMap Turn.analyses =
            (k.analyse settings.threshold e
              (Accumulator.cut (arrivals.map Incoming.payload).flatten).1).1) ∧
      ∀ why, (k.create p).1 = .error why →
        ((new ssrc settings).run k p (Incoming.session arrivals)).1.flatMap Turn.delivered =
            (arrivals.map Incoming.payload).flatten ∧
          ((new ssrc settings).run k p (Incoming.session arrivals)).1.flatMap Turn.analyses = [] := by
  obtain ⟨f, hf⟩ : ∃ f : Filter engine, new ssrc settings = f := ⟨_, rfl⟩
  have hwaiting : f.accumulator.waiting = [] := by rw [← hf]; rfl
  have hsettings : f.settings = settings := by rw [← hf]; rfl
  have hcoherent : f.Coherent := by rw [← hf]; exact coherent_new ssrc settings
  rw [hf, Incoming.session, run_append] at hnone ⊢
  have hnone' : (f.run k p (arrivals.map Incoming.action)).2.1.counters.fallbacks =
      f.counters.fallbacks := hnone.trans (by rw [← hf]; rfl)
  -- the drain delivers what waits at the end
  simp only [List.flatMap_append]
  have hdrain : ∀ (g : Filter engine) q, (g.run k q [.drain]).1.flatMap Turn.delivered =
      g.accumulator.waiting ∧ (g.run k q [.drain]).1.flatMap Turn.analyses = [] := fun g q =>
    ⟨List.append_nil _, rfl⟩
  rw [(hdrain _ _).1, (hdrain _ _).2, List.append_nil]
  have hstarted := stage_started_new k p ssrc settings
  rw [hf] at hstarted
  constructor
  · intro e he
    rw [he] at hstarted
    obtain ⟨hdelivered, hanalyses, haccumulator⟩ := run_incoming k arrivals p hstarted hnone'
    have hkeeps : ∀ payload ∈ (arrivals.map Incoming.payload).dropLast,
        f.settings.KeepsFrames payload.length := by
      intro payload hmem
      rw [← List.map_dropLast] at hmem
      obtain ⟨i, hi, rfl⟩ := List.mem_map.1 hmem
      rw [hsettings, Settings.KeepsFrames, hcarry]
      exact hlong i hi
    have hclean := flow_eq_clean k (arrivals.map Incoming.payload) e hcoherent
      (by rw [hwaiting]; decide) hkeeps
    rw [hwaiting, hsettings, List.nil_append] at hclean
    rw [hdelivered, hanalyses, haccumulator]
    exact hclean
  · intro why hwhy
    rw [hwhy] at hstarted
    obtain ⟨hdelivered, hanalyses, hrest⟩ := run_incoming_of_degraded k arrivals p
      (fun e he => nomatch hstarted.symm.trans he) hwaiting
    rw [hdelivered, hanalyses, hrest]
    exact ⟨List.append_nil _, rfl⟩

/-- **The same comes of every way to split a stream into packets.** Two new filters, whose engines are
created alike, read one stream in packets of a frame or more, the last of which may be shorter, and fall
back on none. Then the same bytes leave both, the drained ones included, and both engines have had the
same frames and answered alike; and what left is the stream, cleaned in one piece. -/
theorem run_session_eq (k : Backend pool engine) (p p' : pool) (ssrc ssrc' : UInt32)
    (settings settings' : Settings) (arrivals arrivals' : List Incoming)
    (hcarry : settings.carryRemainder = true) (hcarry' : settings'.carryRemainder = true)
    (hthreshold : settings.threshold = settings'.threshold)
    (hcreate : (k.create p).1 = (k.create p').1)
    (hstream : (arrivals.map Incoming.payload).flatten = (arrivals'.map Incoming.payload).flatten)
    (hlong : ∀ i ∈ arrivals.dropLast, frameBytes ≤ i.payload.length)
    (hlong' : ∀ i ∈ arrivals'.dropLast, frameBytes ≤ i.payload.length)
    (hnone : ((new ssrc settings).run k p
      (Incoming.session arrivals)).2.1.counters.fallbacks = 0)
    (hnone' : ((new ssrc' settings').run k p'
      (Incoming.session arrivals')).2.1.counters.fallbacks = 0) :
    ((new ssrc settings).run k p (Incoming.session arrivals)).1.flatMap Turn.delivered =
        ((new ssrc' settings').run k p' (Incoming.session arrivals')).1.flatMap Turn.delivered ∧
      ((new ssrc settings).run k p (Incoming.session arrivals)).1.flatMap Turn.analyses =
        ((new ssrc' settings').run k p' (Incoming.session arrivals')).1.flatMap Turn.analyses ∧
      ∀ e, (k.create p).1 = .ok e →
        ((new ssrc settings).run k p (Incoming.session arrivals)).1.flatMap Turn.delivered =
            k.clean settings.threshold e (arrivals.map Incoming.payload).flatten ∧
          (((new ssrc settings).run k p (Incoming.session arrivals)).1.flatMap
              Turn.analyses).map Analysis.frame =
            (Accumulator.cut (arrivals.map Incoming.payload).flatten).1 := by
  obtain ⟨hclean, hraw⟩ := run_session k p ssrc hcarry hlong hnone
  obtain ⟨hclean', hraw'⟩ := run_session k p' ssrc' hcarry' hlong' hnone'
  rw [← hstream, ← hthreshold, ← hcreate] at hclean'
  rw [← hstream, ← hcreate] at hraw'
  have hreference : ∀ e, (k.create p).1 = .ok e →
      ((new ssrc settings).run k p (Incoming.session arrivals)).1.flatMap Turn.delivered =
          k.clean settings.threshold e (arrivals.map Incoming.payload).flatten ∧
        (((new ssrc settings).run k p (Incoming.session arrivals)).1.flatMap
            Turn.analyses).map Analysis.frame =
          (Accumulator.cut (arrivals.map Incoming.payload).flatten).1 := by
    intro e he
    obtain ⟨hdelivered, hanalyses⟩ := hclean e he
    rw [hanalyses, k.map_frame_analyse]
    exact ⟨hdelivered, rfl⟩
  cases hcreated : (k.create p).1 with
  | ok e =>
    obtain ⟨hdelivered, hanalyses⟩ := hclean e hcreated
    obtain ⟨hdelivered', hanalyses'⟩ := hclean' e hcreated
    rw [hcreated] at hreference
    exact ⟨hdelivered.trans hdelivered'.symm, hanalyses.trans hanalyses'.symm, hreference⟩
  | error why =>
    obtain ⟨hdelivered, hanalyses⟩ := hraw why hcreated
    obtain ⟨hdelivered', hanalyses'⟩ := hraw' why hcreated
    rw [hcreated] at hreference
    exact ⟨hdelivered.trans hdelivered'.symm, hanalyses.trans hanalyses'.symm, hreference⟩

/-- A session of packets with room for a frame more has no fallback. -/
theorem fallbacks_session_of_roomy (k : Backend pool engine) (p : pool) (ssrc : UInt32)
    (settings : Settings) {arrivals : List Incoming} {e : engine} (hcreate : (k.create p).1 = .ok e)
    (hroomy : ∀ i ∈ arrivals, i.Roomy) :
    ((new ssrc settings).run k p (Incoming.session arrivals)).2.1.counters.fallbacks = 0 := by
  have hstage := stage_started_new k p ssrc settings
  rw [hcreate] at hstage
  rw [Incoming.session, run_append]
  exact fallbacks_run_of_roomy k arrivals p hroomy hstage (show [].length < frameBytes by decide)

/-- Two thousand zeros in three packets, the last of them short. -/
def threePackets : List Incoming :=
  [.plain 1 (Bytes.zeros 970) 963, .plain 2 (Bytes.zeros 990) 963, .plain 3 (Bytes.zeros 40) 963]

/-- Two thousand zeros in two packets. -/
def twoPackets : List Incoming :=
  [.plain 8 (Bytes.zeros 1000) 2000, .plain 9 (Bytes.zeros 1000) 2000]

/-- An engine that turns every other frame round and fails on the others. -/
def turning : Backend Nat Nat := Script.backend ⟨[], [.reverse, .fail (.root "busy")]⟩

/-- The same comes of two thousand zeros in three packets and in two. -/
theorem run_session_eq_of_zeros :
    ((new 1 carrying).run turning 0 (Incoming.session threePackets)).1.flatMap Turn.delivered =
        ((new 2 carrying).run turning 5 (Incoming.session twoPackets)).1.flatMap Turn.delivered ∧
      ((new 1 carrying).run turning 0 (Incoming.session threePackets)).1.flatMap Turn.delivered =
        turning.clean carrying.threshold 0 (Bytes.zeros 2000) := by
  have hstream : (threePackets.map Incoming.payload).flatten = Bytes.zeros 2000 := by
    change Bytes.zeros 970 ++ (Bytes.zeros 990 ++ (Bytes.zeros 40 ++ [])) = _
    simp only [Bytes.zeros, List.append_nil, List.replicate_append_replicate]
  have hstream' : (twoPackets.map Incoming.payload).flatten = Bytes.zeros 2000 := by
    change Bytes.zeros 1000 ++ (Bytes.zeros 1000 ++ []) = _
    simp only [Bytes.zeros, List.append_nil, List.replicate_append_replicate]
  have hroomy : ∀ i ∈ threePackets ++ twoPackets, i.Roomy := by
    simp only [threePackets, twoPackets, List.cons_append, List.nil_append, List.forall_mem_cons]
    exact ⟨Incoming.roomy_plain _ _ (by decide), Incoming.roomy_plain _ _ (by decide),
      Incoming.roomy_plain _ _ (by decide), Incoming.roomy_plain _ _ (by decide),
      Incoming.roomy_plain _ _ (by decide), fun i hi => absurd hi List.not_mem_nil⟩
  have hframe : ∀ {n}, 960 ≤ n → frameBytes ≤ (Bytes.zeros n).length := fun hn => by
    rw [Bytes.length_zeros]
    exact hn
  have hlong : ∀ i ∈ threePackets.dropLast, frameBytes ≤ i.payload.length := by
    simp only [threePackets, List.dropLast_cons_cons, List.dropLast_singleton, List.forall_mem_cons]
    exact ⟨hframe (by decide), hframe (by decide), fun i hi => absurd hi List.not_mem_nil⟩
  have hlong' : ∀ i ∈ twoPackets.dropLast, frameBytes ≤ i.payload.length := by
    simp only [twoPackets, List.dropLast_cons_cons, List.dropLast_singleton, List.forall_mem_cons]
    exact ⟨hframe (by decide), fun i hi => absurd hi List.not_mem_nil⟩
  obtain ⟨hdelivered, -, hclean⟩ := run_session_eq turning 0 5 1 2 carrying carrying threePackets
    twoPackets rfl rfl rfl rfl (hstream.trans hstream'.symm) hlong hlong'
    (fallbacks_session_of_roomy turning 0 1 carrying rfl fun i hi =>
      hroomy i (List.mem_append_left _ hi))
    (fallbacks_session_of_roomy turning 5 2 carrying rfl fun i hi =>
      hroomy i (List.mem_append_right _ hi))
  rw [hstream] at hclean
  exact ⟨hdelivered, (hclean 0 rfl).1⟩

end Filter

end NoiseFilter
