import NoiseFilter.Proofs.Stream.Counting

/-!
# The counters as a ledger

The counters of a filter are bumped before and after it is known what becomes of a packet, and some of
them by more than one of the exits. Read as a ledger they are simple. Every frame that goes to the engine
is an entry under its own outcome, and every read has one of four fates:

| fate | entries |
|---|---|
| `unanswered`: the transport failed, or the packet reader aborted | none |
| `passed`: no engine was asked about the packet | one packet passed |
| `suppressed`: the engine was asked, and its payload went out | one packet suppressed |
| `fellBack`: the engine was asked, and its payload was given up | one fallback, one packet passed |

`Filter.Exit.booked` says that there are no other entries, and `Filter.run_accounts` is what the counters
of a run come to.

Whether the engine was asked **about a packet** is not to be seen in the frames it got, since there may
have been none: a short packet behind waiting bytes is taken to the engine and need not complete a frame.
So it is read off the moment before the read (`Filter.Moment.enters`).
-/

namespace NoiseFilter

open Rtp

variable {pool engine : Type}

/-! ### Entries -/

/-- **The six counters.** -/
inductive Counter
  | packetsSuppressed
  | packetsPassed
  | framesVoiced
  | framesAttenuated
  | frameErrors
  | fallbacks
deriving DecidableEq, Repr

/-- The three that count frames. -/
def Counter.frames : List Counter := [framesVoiced, framesAttenuated, frameErrors]

/-- What a counter stands at. -/
def Counters.get (c : Counters) : Counter → Nat
  | .packetsSuppressed => c.packetsSuppressed
  | .packetsPassed => c.packetsPassed
  | .framesVoiced => c.framesVoiced
  | .framesAttenuated => c.framesAttenuated
  | .frameErrors => c.frameErrors
  | .fallbacks => c.fallbacks

/-- **The counter of a frame**: the one for its outcome. -/
def Analysis.counter (a : Analysis) : Counter :=
  match a.answer with
  | .ok verdict => if verdict.voice then .framesVoiced else .framesAttenuated
  | .error _ => .frameErrors

/-- **What becomes of a read**, as far as it is counted. -/
inductive Fate
  | unanswered
  | passed
  | suppressed
  | fellBack
deriving DecidableEq, Repr

namespace Fate

/-- The packet was handed on. -/
def answered : Fate → Bool
  | unanswered => false
  | _ => true

/-- The engine was asked about the packet. -/
def entered : Fate → Bool
  | suppressed | fellBack => true
  | _ => false

/-- The entries of a fate. -/
def entries : Fate → List Counter
  | unanswered => []
  | passed => [.packetsPassed]
  | suppressed => [.packetsSuppressed]
  | fellBack => [.fallbacks, .packetsPassed]

/-- No fate is entered as a frame. -/
theorem count_entries_eq_zero (fate : Fate) {i : Counter} (hi : i ∈ Counter.frames) :
    fate.entries.count i = 0 := by
  revert i
  cases fate <;> decide

end Fate

namespace Counters

/-- Counters are what they stand at. -/
theorem eq_of_get {c c' : Counters} (h : ∀ i, c.get i = c'.get i) : c = c' := by
  obtain ⟨s, p, v, a, e, b⟩ := c
  obtain ⟨s', p', v', a', e', b'⟩ := c'
  obtain rfl : s = s' := h .packetsSuppressed
  obtain rfl : p = p' := h .packetsPassed
  obtain rfl : v = v' := h .framesVoiced
  obtain rfl : a = a' := h .framesAttenuated
  obtain rfl : e = e' := h .frameErrors
  obtain rfl : b = b' := h .fallbacks
  rfl

theorem get_packetSuppressed (c : Counters) (i : Counter) :
    c.packetSuppressed.get i = c.get i + Fate.suppressed.entries.count i := by
  cases i <;> rfl

theorem get_packetPassed (c : Counters) (i : Counter) :
    c.packetPassed.get i = c.get i + Fate.passed.entries.count i := by
  cases i <;> rfl

theorem get_fellBack_packetPassed (c : Counters) (i : Counter) :
    c.fellBack.packetPassed.get i = c.get i + Fate.fellBack.entries.count i := by
  cases i <;> rfl

end Counters

namespace Analysis

/-- A frame is an entry under its outcome. -/
theorem get_count (a : Analysis) (c : Counters) (i : Counter) :
    (a.count c).get i = c.get i + [a.counter].count i := by
  rw [count, counter]
  rcases a.answer with why | ⟨samples, probability, _ | _⟩ <;> cases i <;> rfl

/-- **The entries of frames.** -/
theorem get_tally (analyses : List Analysis) (i : Counter) :
    ∀ c, (tally analyses c).get i = c.get i + (analyses.map counter).count i := by
  induction analyses with
  | nil => exact fun c => rfl
  | cons a analyses ih =>
    intro c
    change (tally analyses (a.count c)).get i = c.get i + ([a.counter] ++ analyses.map counter).count i
    rw [ih, a.get_count, List.count_append, Nat.add_assoc]

/-- Frames are entered under the counters of frames. -/
theorem counter_mem_frames (a : Analysis) : a.counter ∈ Counter.frames := by
  rw [counter]
  rcases a.answer with why | ⟨samples, probability, _ | _⟩ <;> simp [Counter.frames]

theorem count_counter_eq_zero {i : Counter} (hi : i ∉ Counter.frames) (analyses : List Analysis) :
    (analyses.map counter).count i = 0 := by
  refine List.count_eq_zero.2 fun hmem => ?_
  obtain ⟨a, -, rfl⟩ := List.mem_map.1 hmem
  exact hi a.counter_mem_frames

end Analysis

namespace Filter

/-! ### The entries of the exits -/

section Entries

variable (k : Backend pool engine) (p : pool) (f : Filter engine) (i : Counter)

/-- A packet that passes is entered once. -/
theorem get_passed :
    (f.started k p).passed.counters.get i = f.counters.get i + Fate.passed.entries.count i := by
  rw [passed, Counters.get_packetPassed, started_counters]

/-- What was put to the engine is entered frame by frame, and then as suppressed. -/
theorem get_suppressed (e : engine) (payload : Bytes) :
    ((f.started k p).analysed k e payload).counters.packetSuppressed.get i = f.counters.get i +
      (((f.started k p).suppress k e payload).analyses.map Analysis.counter ++
        Fate.suppressed.entries).count i := by
  rw [Counters.get_packetSuppressed, analysed, Analysis.get_tally, started_counters,
    List.count_append, Nat.add_assoc]

/-- Or else as given up. -/
theorem get_fallenBack (e : engine) (payload waiting : Bytes) :
    (((f.started k p).analysed k e payload).fallenBack waiting).counters.get i = f.counters.get i +
      (((f.started k p).suppress k e payload).analyses.map Analysis.counter ++
        Fate.fellBack.entries).count i := by
  rw [fallenBack, Counters.get_fellBack_packetPassed, analysed, Analysis.get_tally, started_counters,
    List.count_append, Nat.add_assoc]

end Entries

/-! ### Moments -/

/-- **A moment of a run**: the filter, the pool, and the action that is due. -/
structure Moment (pool engine : Type) where
  pool : pool
  filter : Filter engine
  action : Action

/-- The moments of a run. -/
def moments (k : Backend pool engine) : pool → Filter engine → List Action →
    List (Moment pool engine)
  | _, _, [] => []
  | p, f, a :: actions => ⟨p, f, a⟩ :: moments k (f.act k p a).2.2 (f.act k p a).2.1 actions

/-- A packet was handed on. -/
def Turn.answered : Turn engine → Bool
  | read _ _ _ reading =>
    match reading.outcome with
    | .delivered _ => true
    | _ => false
  | drain .. => false

namespace Moment

/-- What the action shows. -/
def turn (k : Backend pool engine) (m : Moment pool engine) : Turn engine :=
  (m.filter.act k m.pool m.action).1

/-- The filter that the action leaves. -/
def after (k : Backend pool engine) (m : Moment pool engine) : Filter engine :=
  (m.filter.act k m.pool m.action).2.1

/-- **The engine will be asked about a packet**: there is an engine to be had, and a packet arrives that
is not too short. -/
def enters (k : Backend pool engine) (m : Moment pool engine) : Bool :=
  match m.action with
  | .read (.ok d) buffer =>
    match (m.filter.started k m.pool).stage with
    | .active _ => (buffer.packet? d.length).any fun packet =>
        !(m.filter.started k m.pool).isShort packet.payload
    | _ => false
  | _ => false

/-- One packet more is counted as suppressed. -/
def suppresses (k : Backend pool engine) (m : Moment pool engine) : Bool :=
  m.filter.counters.packetsSuppressed < (m.after k).counters.packetsSuppressed

end Moment

/-- The turns of a run are those of its moments. -/
theorem map_turn_moments (k : Backend pool engine) (actions : List Action) :
    ∀ (p : pool) (f : Filter engine),
      (moments k p f actions).map (Moment.turn k) = (f.run k p actions).1 := by
  induction actions with
  | nil => exact fun p f => rfl
  | cons a actions ih => exact fun p f => congrArg _ (ih _ _)

/-- **The engine is asked about a packet that it takes**, and about no other. -/
theorem Moment.enters_iff {k : Backend pool engine} {p : pool} {f : Filter engine} {d : Delivery}
    {buffer : Buffer} : Moment.enters k ⟨p, f, .read (.ok d) buffer⟩ = true ↔
      ∃ e packet, (f.started k p).Takes e d buffer packet := by
  constructor
  · intro h
    simp only [enters] at h
    split at h
    · next e hstage =>
      cases hpacket : buffer.packet? d.length with
      | none =>
        rw [hpacket] at h
        cases h
      | some packet =>
        rw [hpacket, Option.any_some, Bool.not_eq_true'] at h
        exact ⟨e, packet, hstage, hpacket, h⟩
    · cases h
  · rintro ⟨e, packet, hstage, hpacket, hlong⟩
    simp only [enters, hstage, hpacket, Option.any_some, hlong, Bool.not_false]

/-! ### One moment -/

/-- **How a read is booked**: by whether it was answered and the engine asked, and with the entries of its
frames and of its fate. -/
structure Books (fate : Fate) (answered entered : Bool) (analyses : List Analysis)
    (c c' : Counters) : Prop where
  answered : answered = fate.answered
  entered : entered = fate.entered
  idle : fate.entered = false → analyses = []
  get : ∀ i, c'.get i = c.get i + (analyses.map Analysis.counter ++ fate.entries).count i

/-- What is unanswered is not entered. -/
theorem books_unanswered (c : Counters) : Books .unanswered false false [] c c :=
  ⟨rfl, rfl, fun _ => rfl, fun _ => rfl⟩

/-- **Every exit of a read is booked.** -/
theorem Exit.booked {k : Backend pool engine} {p : pool} {f g : Filter engine} {buffer : Buffer}
    {arrival : Arrival} {r : Reading} (h : f.Exit k p buffer arrival r g) :
    ∃ fate, Books fate (Turn.read f arrival buffer r).answered
      (Moment.enters k ⟨p, f, .read arrival buffer⟩) r.analyses f.counters g.counters := by
  -- no engine is asked where none is to be had, where there is no packet, and where it is too short
  have hidle : ∀ {d}, (∀ e packet, ¬ (f.started k p).Takes e d buffer packet) →
      Moment.enters k ⟨p, f, .read (.ok d) buffer⟩ = false := by
    intro d hnone
    refine Bool.eq_false_iff.2 fun henters => ?_
    obtain ⟨e, packet, htakes⟩ := Moment.enters_iff.1 henters
    exact hnone e packet htakes
  have hunread : ∀ {d}, buffer.packet? d.length = none →
      ∀ e packet, ¬ (f.started k p).Takes e d buffer packet := by
    intro d hnone e packet htakes
    rw [htakes.decoded] at hnone
    cases hnone
  have hasked : ∀ {d e packet}, (f.started k p).Takes e d buffer packet →
      Moment.enters k ⟨p, f, .read (.ok d) buffer⟩ = true := fun htakes =>
    Moment.enters_iff.2 ⟨_, _, htakes⟩
  cases h with
  | failed why => exact ⟨.unanswered, books_unanswered _⟩
  | degraded d notices hquiet hstage =>
    exact ⟨.passed, rfl, hidle fun e packet htakes => hstage e htakes.stage, fun _ => rfl,
      f.get_passed k p⟩
  | overrun d e notices hquiet hstage hsize hfault =>
    refine ⟨.unanswered, ?_⟩
    rw [hidle (hunread (Buffer.packet?_eq_none fun _ => ⟨_, hfault⟩)), started_counters]
    exact books_unanswered _
  | unread d e notices hquiet hstage hfault =>
    have hnone : buffer.packet? d.length = none := by
      refine Buffer.packet?_eq_none fun hsize => ?_
      obtain ⟨what, hwhat⟩ := hfault hsize
      exact ⟨_, hwhat⟩
    exact ⟨.passed, rfl, hidle (hunread hnone), fun _ => rfl, f.get_passed k p⟩
  | short d e packet notices hquiet hstage hpacket hshort =>
    have hnone : ∀ e packet, ¬ (f.started k p).Takes e d buffer packet := by
      intro e' packet' htakes
      obtain rfl := htakes.unique hpacket
      rw [htakes.long] at hshort
      cases hshort
    exact ⟨.passed, rfl, hidle hnone, fun _ => rfl, f.get_passed k p⟩
  | suppressed d e packet data notices hquiet htakes =>
    exact ⟨.suppressed, rfl, hasked htakes, fun hnone => (nomatch hnone),
      fun i => f.get_suppressed k p i e packet.payload⟩
  | gaveUp d e packet notices hquiet htakes =>
    exact ⟨.fellBack, rfl, hasked htakes, fun hnone => (nomatch hnone),
      fun i => f.get_fallenBack k p i e packet.payload _⟩
  | released d e packet data notices hquiet htakes =>
    exact ⟨.fellBack, rfl, hasked htakes, fun hnone => (nomatch hnone),
      fun i => f.get_fallenBack k p i e packet.payload _⟩
  | dropped d e packet notices hdrop htakes =>
    exact ⟨.fellBack, rfl, hasked htakes, fun hnone => (nomatch hnone),
      fun i => f.get_fallenBack k p i e packet.payload _⟩

/-- **Every moment is booked.** A drain is unanswered, like an error. -/
theorem Moment.booked (k : Backend pool engine) (m : Moment pool engine) :
    ∃ fate, Books fate (m.turn k).answered (m.enters k) (m.turn k).analyses m.filter.counters
      (m.after k).counters := by
  obtain ⟨p, f, ⟨arrival, buffer⟩ | _⟩ := m
  · exact (f.exit_read k p arrival buffer).booked
  · exact ⟨.unanswered, books_unanswered _⟩

section Books

variable {fate : Fate} {answered entered : Bool} {analyses : List Analysis} {c c' : Counters}

/-- The counters of packets have the entries of the fate alone. -/
theorem Books.get_of_not_mem (h : Books fate answered entered analyses c c') {i : Counter}
    (hi : i ∉ Counter.frames) : c'.get i = c.get i + fate.entries.count i := by
  rw [h.get, List.count_append, Analysis.count_counter_eq_zero hi, Nat.zero_add]

/-- What the packets are counted as, by their fate. -/
theorem Books.packets (h : Books fate answered entered analyses c c') :
    c'.packetsSuppressed = c.packetsSuppressed + fate.entries.count .packetsSuppressed ∧
      c'.packetsPassed = c.packetsPassed + fate.entries.count .packetsPassed ∧
      c'.fallbacks = c.fallbacks + fate.entries.count .fallbacks :=
  ⟨h.get_of_not_mem (i := .packetsSuppressed) (by decide),
    h.get_of_not_mem (i := .packetsPassed) (by decide), h.get_of_not_mem (i := .fallbacks) (by decide)⟩

/-- What is unanswered leaves the counters as they were. -/
theorem Books.eq_of_unanswered (h : Books fate answered entered analyses c c')
    (hanswered : answered = false) : c' = c := by
  obtain rfl : fate = .unanswered := by
    rw [h.answered] at hanswered
    cases fate with
    | unanswered => rfl
    | passed | suppressed | fellBack => cases hanswered
  refine Counters.eq_of_get fun i => ?_
  rw [h.get, h.idle rfl]
  rfl

end Books

/-- **What a moment does to the counters.** -/
structure Moment.Accounted (k : Backend pool engine) (m : Moment pool engine) : Prop where
  /-- a packet that is handed on is counted as one of the two -/
  answered : (m.turn k).answered = true →
    ((m.after k).counters.packetsSuppressed = m.filter.counters.packetsSuppressed + 1 ∧
        (m.after k).counters.packetsPassed = m.filter.counters.packetsPassed) ∨
      ((m.after k).counters.packetsSuppressed = m.filter.counters.packetsSuppressed ∧
        (m.after k).counters.packetsPassed = m.filter.counters.packetsPassed + 1)
  /-- where none is, nothing is counted -/
  unanswered : (m.turn k).answered = false → (m.after k).counters = m.filter.counters
  /-- no counter goes back -/
  grows : ∀ i, m.filter.counters.get i ≤ (m.after k).counters.get i
  /-- a fallback is a packet that the engine was asked about and that is not counted as suppressed -/
  fallbacks : (m.after k).counters.fallbacks = m.filter.counters.fallbacks +
    if m.enters k && !m.suppresses k then 1 else 0

theorem Moment.accounted (k : Backend pool engine) (m : Moment pool engine) : m.Accounted k := by
  obtain ⟨fate, h⟩ := m.booked k
  obtain ⟨hsuppressed, hpassed, hfallbacks⟩ := h.packets
  refine ⟨fun hanswered => ?_, h.eq_of_unanswered, fun i => ?_, ?_⟩
  · rw [h.answered] at hanswered
    rw [hsuppressed, hpassed]
    cases fate with
    | unanswered => cases hanswered
    | suppressed => exact .inl ⟨rfl, rfl⟩
    | passed | fellBack => exact .inr ⟨rfl, rfl⟩
  · rw [h.get]
    exact Nat.le_add_right _ _
  · have hsuppresses : m.suppresses k = (fate == .suppressed) := by
      rw [suppresses, hsuppressed]
      cases fate with
      | suppressed => exact decide_eq_true (Nat.lt_succ_self _)
      | unanswered | passed | fellBack => exact decide_eq_false (Nat.lt_irrefl _)
    rw [hfallbacks, h.entered, hsuppresses]
    cases fate <;> rfl

/-! ### A run -/

/-- **The accounts of a run**, from counters at `c` to counters at `c'`. -/
structure Accounts (k : Backend pool engine) (moments : List (Moment pool engine))
    (c c' : Counters) : Prop where
  packets : c'.packets = c.packets + moments.countP fun m => (m.turn k).answered
  fallbacks : c'.fallbacks = c.fallbacks + moments.countP fun m => m.enters k && !m.suppresses k
  outcomes : ∀ i ∈ Counter.frames, c'.get i = c.get i +
    ((moments.flatMap fun m => (m.turn k).analyses).map Analysis.counter).count i

/-- The accounts of one moment more. -/
theorem Accounts.cons {k : Backend pool engine} (m : Moment pool engine)
    {moments : List (Moment pool engine)} {c' : Counters}
    (h : Accounts k moments (m.after k).counters c') :
    Accounts k (m :: moments) m.filter.counters c' := by
  have hm := m.accounted k
  refine ⟨?_, ?_, fun i hi => ?_⟩
  · have hpackets : (m.after k).counters.packets =
        m.filter.counters.packets + if (m.turn k).answered then 1 else 0 := by
      cases hanswered : (m.turn k).answered with
      | false => rw [hm.unanswered hanswered]; rfl
      | true =>
        rw [Counters.packets, Counters.packets]
        rcases hm.answered hanswered with ⟨hs, hp⟩ | ⟨hs, hp⟩ <;> rw [hs, hp, if_pos rfl] <;> omega
    rw [h.packets, hpackets, List.countP_cons]
    omega
  · rw [h.fallbacks, hm.fallbacks, List.countP_cons]
    omega
  · obtain ⟨fate, hbooks⟩ := m.booked k
    rw [h.outcomes i hi, hbooks.get, List.count_append, fate.count_entries_eq_zero hi,
      List.flatMap_cons, List.map_append, List.count_append, Nat.add_zero, Nat.add_assoc]

/-- **Every run has its accounts.** -/
theorem accounts_run (k : Backend pool engine) (actions : List Action) :
    ∀ (p : pool) (f : Filter engine),
      Accounts k (moments k p f actions) f.counters (f.run k p actions).2.1.counters := by
  induction actions with
  | nil => exact fun p f => ⟨rfl, rfl, fun _ _ => rfl⟩
  | cons a actions ih => exact fun p f => .cons ⟨p, f, a⟩ (ih _ _)

/-- Every frame of a run is counted under its outcome. -/
theorem get_run (k : Backend pool engine) (p : pool) (f : Filter engine) (actions : List Action) :
    ∀ i ∈ Counter.frames, (f.run k p actions).2.1.counters.get i = f.counters.get i +
      (((f.run k p actions).1.flatMap Turn.analyses).map Analysis.counter).count i := by
  intro i hi
  rw [(accounts_run k actions p f).outcomes i hi, ← map_turn_moments, List.flatMap_map]

/-- A fallback is counted with a packet that passes. -/
theorem fallbacks_le_act (k : Backend pool engine) (p : pool) (f : Filter engine) (a : Action)
    (h : f.counters.fallbacks ≤ f.counters.packetsPassed) :
    (f.act k p a).2.1.counters.fallbacks ≤ (f.act k p a).2.1.counters.packetsPassed := by
  obtain ⟨fate, hbooks⟩ := Moment.booked k ⟨p, f, a⟩
  obtain ⟨-, hpassed, hfallbacks⟩ := hbooks.packets
  change (f.act k p a).2.1.counters.packetsPassed = _ at hpassed
  change (f.act k p a).2.1.counters.fallbacks = _ at hfallbacks
  rw [hpassed, hfallbacks]
  refine Nat.add_le_add h ?_
  cases fate <;> decide

/-- **The counters account for every run.** For every filter and all that is done with it,

* every read that hands a packet on counts it once, as suppressed or as passed; all else counts nothing;
  no counter goes back; and a fallback is counted exactly where the engine was asked about a packet that
  is not counted as suppressed (`Moment.Accounted`);
* so the packets counted are those that were handed on, and the fallbacks are those of them that were put
  to the engine and are not among the suppressed;
* the frames counted are those that were put to the engine, each under its own outcome, whatever became of
  its packet.
-/
theorem run_accounts (k : Backend pool engine) (p : pool) (ssrc : UInt32) (settings : Settings)
    (actions : List Action) :
    (∀ m ∈ moments k p (new ssrc settings) actions, m.Accounted k) ∧
      ((new ssrc settings).run k p actions).2.1.counters.packets =
        ((new ssrc settings).run k p actions).1.countP Turn.answered ∧
      ((new ssrc settings).run k p actions).2.1.counters.fallbacks =
        (moments k p (new ssrc settings) actions).countP (fun m => m.enters k && !m.suppresses k) ∧
      ((new ssrc settings).run k p actions).2.1.counters.fallbacks ≤
        ((new ssrc settings).run k p actions).2.1.counters.packetsPassed ∧
      ((new ssrc settings).run k p actions).2.1.counters.frames =
        (((new ssrc settings).run k p actions).1.flatMap Turn.analyses).length ∧
      ∀ i ∈ Counter.frames, ((new ssrc settings).run k p actions).2.1.counters.get i =
        ((((new ssrc settings).run k p actions).1.flatMap Turn.analyses).map Analysis.counter).count i := by
  have hzero : (new ssrc settings : Filter engine).counters = .zero := rfl
  obtain ⟨hpackets, hfallbacks, houtcomes⟩ := accounts_run k actions p (new ssrc settings)
  have hframes := frames_run k actions p (new ssrc settings)
  rw [hzero] at hpackets hfallbacks houtcomes hframes
  rw [← map_turn_moments] at hframes ⊢
  refine ⟨fun m _ => m.accounted k, ?_, ?_, ?_, ?_, fun i hi => ?_⟩
  · rw [hpackets, List.countP_map]
    exact Nat.zero_add _
  · rw [hfallbacks]
    exact Nat.zero_add _
  · exact run_preserves (P := fun f => f.counters.fallbacks ≤ f.counters.packetsPassed)
      (fallbacks_le_act k) actions p _ (Nat.le_refl 0)
  · rw [hframes]
    exact Nat.zero_add _
  · rw [houtcomes i hi, List.flatMap_map]
    have hstart : Counters.zero.get i = 0 := by cases i <;> rfl
    rw [hstart, Nat.zero_add]

end Filter

end NoiseFilter
