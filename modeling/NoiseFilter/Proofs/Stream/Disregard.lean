import Mathlib.Data.List.Forall2
import NoiseFilter.Proofs.Stream.Alignment
import NoiseFilter.Proofs.Stream.Answers
import NoiseFilter.Proofs.Stream.Ledger
import NoiseFilter.Proofs.Stream.Lifecycle
import NoiseFilter.Proofs.Stream.Splitting

/-!
# Reads that a stream disregards

A filter has no work with an error of the transport, with a length that its buffer does not have, with
bytes that are no packet, and with a packet that is too short to hold a frame where nothing waits for the
rest of one. `Filter.run_undisturbed` says that such reads may come in between at any time: all other
actions show what they show without them, the engine gets the same frames, the same bytes wait, and the
counters differ in the packets that were passed for them.

Two things have to be arranged.

* **The first delivery takes the engine**, also if it is one that the filter has no work with. So a run
  with such reads put in may be ahead of the run without them by an engine. What is compared is therefore
  not the filters but what their next delivery finds (`Filter.Behind`): it finds the same engine, taken
  from the pool now or before.
* **Counters are written and never read.** A filter that has passed some packets more does the same with
  everything that arrives (`Filter.receive_passing`).
-/

namespace NoiseFilter

open Rtp

variable {pool engine : Type}

namespace Filter

/-- **What a filter has no work with.** -/
inductive Disregards (f : Filter engine) : Action → Prop
  /-- an error of the transport -/
  | failed (why : TransportError) (buffer : Buffer) : Disregards f (.read (.error why) buffer)
  /-- a length that the buffer does not have -/
  | outsized (d : Delivery) (buffer : Buffer) (hsize : buffer.size < d.length) :
      Disregards f (.read (.ok d) buffer)
  /-- bytes that are refused as a packet, or on which the packet reader aborts -/
  | refused (d : Delivery) (buffer : Buffer) (fault : Fault)
      (hfault : Packet.decode (buffer.toBytes.take d.length) = .error fault) :
      Disregards f (.read (.ok d) buffer)
  /-- a packet with less than a frame of payload, where nothing may wait or nothing does -/
  | short (d : Delivery) (buffer : Buffer) (packet : Packet)
      (hpacket : buffer.packet? d.length = some packet) (hshort : packet.payload.length < frameBytes)
      (hidle : f.settings.carryRemainder = false ∨ f.accumulator.waiting = []) :
      Disregards f (.read (.ok d) buffer)

/-- Nothing of what a filter disregards is a packet for its engine. -/
theorem Disregards.not_takes {f : Filter engine} {d : Delivery} {buffer : Buffer}
    (h : f.Disregards (.read (.ok d) buffer)) (k : Backend pool engine) (p : pool) (e : engine)
    (packet : Packet) : ¬ (f.started k p).Takes e d buffer packet := by
  intro htakes
  obtain ⟨hsize, hdecode⟩ := Buffer.packet?_eq_some.1 htakes.decoded
  cases h with
  | outsized _ _ hlarge => omega
  | refused _ _ fault hfault =>
    rw [hdecode] at hfault
    cases hfault
  | short _ _ packet' hpacket hshort hidle =>
    obtain rfl := htakes.unique hpacket
    have hlong := htakes.long
    rw [isShort, started_settings, started_accumulator, decide_eq_true hshort] at hlong
    rcases hidle with hcarry | hwaiting
    · rw [hcarry] at hlong
      cases hlong
    · rw [hwaiting, List.isEmpty_nil, Bool.or_true] at hlong
      cases hlong

/-! ### Some packets more -/

/-- The filter that has passed some packets more. -/
def passing (f : Filter engine) (count : Nat) : Filter engine :=
  { f with counters := f.counters.packetsPass count }

theorem passing_passing (f : Filter engine) (count count' : Nat) :
    (f.passing count).passing count' = f.passing (count + count') := by
  simp only [passing, Counters.packetsPass_add]


end Filter

theorem Counters.packetPassed_packetsPass (c : Counters) (count : Nat) :
    (c.packetsPass count).packetPassed = c.packetPassed.packetsPass count := by
  simp only [packetPassed, packetsPass, Nat.add_right_comm]

/-- Frames are counted beside the packets. -/
theorem Analysis.tally_packetsPass (analyses : List Analysis) (c : Counters) (count : Nat) :
    tally analyses (c.packetsPass count) = (tally analyses c).packetsPass count := by
  induction analyses generalizing c with
  | nil => rfl
  | cons a analyses ih =>
    have hcount : a.count (c.packetsPass count) = (a.count c).packetsPass count := by
      simp only [Analysis.count]
      split
      · split <;> rfl
      · rfl
    change tally analyses (a.count (c.packetsPass count)) = _
    rw [hcount, ih]
    rfl

namespace Filter

section Passing

variable (k : Backend pool engine) (f : Filter engine) (count : Nat) (e : engine) (packet : Packet)
  (payload carried : Bytes) (d : Delivery) (buffer : Buffer)

theorem pass_passing : (f.passing count).pass d buffer =
    ((f.pass d buffer).1, (f.pass d buffer).2.passing count) := by
  simp only [pass, passing, Counters.packetPassed_packetsPass]

theorem release_passing : (f.passing count).release packet carried d buffer =
    ((f.release packet carried d buffer).1, (f.release packet carried d buffer).2.passing count) := by
  simp only [release, passing, Counters.packetPassed_packetsPass]
  split
  · split <;> rfl
  · rfl

theorem fallBack_passing : (f.passing count).fallBack packet carried d buffer =
    ((f.fallBack packet carried d buffer).1, (f.fallBack packet carried d buffer).2.passing count) := by
  obtain ⟨g, hg⟩ : ∃ g : Filter engine, { f with
    counters := f.counters.fellBack
    accumulator := f.accumulator.clear } = g := ⟨_, rfl⟩
  have hpassing : { f.passing count with
      counters := (f.passing count).counters.fellBack
      accumulator := (f.passing count).accumulator.clear } = g.passing count := by
    rw [← hg]
    rfl
  rw [fallBack, fallBack, hpassing, hg, pass_passing, release_passing]
  split <;> rfl

theorem deliver_passing : (f.passing count).deliver packet payload carried d buffer =
    ((f.deliver packet payload carried d buffer).1,
      (f.deliver packet payload carried d buffer).2.passing count) := by
  simp only [deliver, fallBack_passing]
  split
  · split <;> rfl
  · rfl

theorem process_passing : (f.passing count).process k e packet d buffer =
    ((f.process k e packet d buffer).1, (f.process k e packet d buffer).2.passing count) := by
  have hsuppress : (f.passing count).suppress k e packet.payload = f.suppress k e packet.payload := rfl
  obtain ⟨s, hs⟩ : ∃ s, f.suppress k e packet.payload = s := ⟨_, rfl⟩
  obtain ⟨g, hg⟩ : ∃ g : Filter engine, { f with
    stage := .active s.engine
    accumulator := s.accumulator
    counters := Analysis.tally s.analyses f.counters } = g := ⟨_, rfl⟩
  have hpassing : { f.passing count with
      stage := .active s.engine
      accumulator := s.accumulator
      counters := Analysis.tally s.analyses (f.passing count).counters } = g.passing count := by
    rw [← hg]
    simp only [passing, Analysis.tally_packetsPass]
  rw [process, process, hsuppress, hs, hpassing, hg, deliver_passing]
  rfl

/-- **A filter that has passed some packets more does the same with every delivery.** -/
theorem receive_passing : (f.passing count).receive k e d buffer =
    ((f.receive k e d buffer).1, (f.receive k e d buffer).2.passing count) := by
  have hshort : ∀ payload, (f.passing count).isShort payload = f.isShort payload := fun _ => rfl
  simp only [receive, pass_passing, process_passing, hshort]
  split
  · rfl
  · split
    · rfl
    · rfl
    · split <;> rfl

end Passing

/-! ### A run that is ahead -/

/-- Taking an engine has nothing to do with what waits and what is counted. -/
theorem start_with (k : Backend pool engine) (p : pool) (f : Filter engine) (accumulator : Accumulator)
    (counters : Counters) :
    { f with accumulator, counters }.started k p = { f.started k p with accumulator, counters } ∧
      ({ f with accumulator, counters }.start k p).2.2 = (f.start k p).2.2 := by
  obtain ⟨ssrc, settings, stage, _, _⟩ := f
  rw [started, started, start, start]
  cases stage with
  | uninitialized => dsimp only; rcases k.create p with ⟨e | why, q⟩ <;> exact ⟨rfl, rfl⟩
  | active e => exact ⟨rfl, rfl⟩
  | degraded => exact ⟨rfl, rfl⟩

/-- **A filter that is behind another one**: the next delivery finds the same in both, but for some
packets more that the other has passed. The other may have its engine already, of the same pool. -/
structure Behind (k : Backend pool engine) (count : Nat) (p : pool) (f : Filter engine) (q : pool)
    (g : Filter engine) : Prop where
  started : g.started k q = (f.started k p).passing count
  pool : (g.start k q).2.2 = (f.start k p).2.2

namespace Behind

variable {k : Backend pool engine} {count : Nat} {p q : pool} {f g : Filter engine}

/-- Some packets more are passed. -/
theorem of_passing (k : Backend pool engine) (count : Nat) (p : pool) (f : Filter engine) :
    Behind k count p f p (f.passing count) := by
  obtain ⟨hstarted, hpool⟩ := start_with k p f f.accumulator (f.counters.packetsPass count)
  refine ⟨hstarted.trans ?_, hpool⟩
  rw [passing, started_accumulator, started_counters]

/-- What waits is the same, and the counters differ in the packets passed. -/
theorem fields (h : Behind k count p f q g) :
    g.accumulator = f.accumulator ∧ g.counters = f.counters.packetsPass count := by
  have haccumulator := congrArg Filter.accumulator h.started
  have hcounters := congrArg Filter.counters h.started
  rw [started_accumulator] at haccumulator
  rw [started_counters] at hcounters
  refine ⟨haccumulator.trans (f.started_accumulator k p), hcounters.trans ?_⟩
  rw [passing, started_counters]

/-- **A delivery is read alike**, and it makes up for the engine. -/
theorem read (h : Behind k count p f q g) (d : Delivery) (buffer : Buffer) :
    (g.read k q (.ok d) buffer).1.outcome = (f.read k p (.ok d) buffer).1.outcome ∧
      (g.read k q (.ok d) buffer).1.buffer = (f.read k p (.ok d) buffer).1.buffer ∧
      (g.read k q (.ok d) buffer).1.analyses = (f.read k p (.ok d) buffer).1.analyses ∧
      (g.read k q (.ok d) buffer).2.1 = (f.read k p (.ok d) buffer).2.1.passing count ∧
      (g.read k q (.ok d) buffer).2.2 = (f.read k p (.ok d) buffer).2.2 := by
  have hstage : (g.started k q).stage = (f.started k p).stage := by
    rw [h.started]
    rfl
  by_cases hactive : ∃ e, (f.started k p).stage = .active e
  · obtain ⟨e, he⟩ := hactive
    rw [read_of_active k p he, read_of_active k q (hstage.trans he), h.started, h.pool,
      receive_passing]
    exact ⟨rfl, rfl, rfl, rfl, rfl⟩
  · have hnone : ∀ e, (f.started k p).stage ≠ .active e := fun e he => hactive ⟨e, he⟩
    rw [read_of_degraded k p hnone, read_of_degraded k q (fun e he => hnone e (hstage ▸ he)),
      h.started, h.pool]
    refine ⟨rfl, rfl, rfl, ?_, rfl⟩
    simp only [passed, passing, Counters.packetPassed_packetsPass]

end Behind

/-! ### A run with more in it -/

/-- **A piece of a run into which something was put**: an action of its own, or one that was put in. -/
inductive Piece
  | own (action : Action)
  | extra (action : Action)

namespace Piece

/-- The action of a piece. -/
def action : Piece → Action
  | own a | extra a => a

/-- Whether an action is the run's own. -/
def isOwn : Piece → Bool
  | own _ => true
  | extra _ => false

/-- The actions that are the run's own. -/
def owned (pieces : List Piece) : List Action := (pieces.filter isOwn).map action

end Piece

/-- **What is put in is disregarded** by the filter that it meets. -/
def Undisturbing (k : Backend pool engine) : pool → Filter engine → List Piece → Prop
  | _, _, [] => True
  | p, f, .own a :: pieces => Undisturbing k (f.act k p a).2.2 (f.act k p a).2.1 pieces
  | p, f, .extra a :: pieces =>
    f.Disregards a ∧ Undisturbing k (f.act k p a).2.2 (f.act k p a).2.1 pieces

/-- The turns of the run's own actions. -/
def ownTurns (pieces : List Piece) (turns : List (Turn engine)) : List (Turn engine) :=
  ((pieces.zip turns).filter fun x => x.1.isOwn).map Prod.snd

/-- The turns of what was put in. -/
def extraTurns (pieces : List Piece) (turns : List (Turn engine)) : List (Turn engine) :=
  ((pieces.zip turns).filter fun x => !x.1.isOwn).map Prod.snd

/-- **Turns that show the same**: reads of the same arrival that end alike, with the same bytes in the
buffer and the same frames put to the engine and answered by it; or drains of the same bytes. -/
inductive Turn.Agrees : Turn engine → Turn engine → Prop
  | read {f g : Filter engine} (arrival : Arrival) (buffer : Buffer) {r r' : Reading}
      (outcome : r'.outcome = r.outcome) (after : r'.buffer = r.buffer)
      (analyses : r'.analyses = r.analyses) :
      Agrees (.read f arrival buffer r) (.read g arrival buffer r')
  | drain {f g : Filter engine} (bytes : Bytes) : Agrees (.drain f bytes) (.drain g bytes)

/-- Turns that show the same put the same to the engine. -/
theorem Turn.Agrees.analyses_eq {t t' : Turn engine} (h : t.Agrees t') : t'.analyses = t.analyses := by
  cases h with
  | read arrival buffer outcome after analyses => exact analyses
  | drain bytes => rfl

section Run

variable {k : Backend pool engine} {count : Nat} {p q : pool} {f g : Filter engine}

/-- **Every action of the run's own shows the same**, and leaves the filters as far apart as they were. -/
theorem Behind.act (h : Behind k count p f q g) (a : Action) :
    (f.act k p a).1.Agrees (g.act k q a).1 ∧
      Behind k count (f.act k p a).2.2 (f.act k p a).2.1 (g.act k q a).2.2 (g.act k q a).2.1 := by
  obtain ⟨haccumulator, hcounters⟩ := h.fields
  rcases a with ⟨why | d, buffer⟩ | _
  · exact ⟨.read _ _ rfl rfl rfl, h⟩
  · obtain ⟨houtcome, hbuffer, hanalyses, hfilter, hpool⟩ := h.read d buffer
    refine ⟨.read _ _ houtcome hbuffer hanalyses, ?_⟩
    rw [act_read, act_read, hfilter, hpool]
    exact .of_passing k count _ _
  · -- both are emptied, and the next delivery finds them so
    obtain ⟨hf, hp⟩ := start_with k p f .empty f.counters
    obtain ⟨hg, hq⟩ := start_with k q g .empty g.counters
    refine ⟨?_, hg.trans ?_, hq.trans (h.pool.trans hp.symm)⟩
    · change Turn.Agrees (.drain f f.accumulator.waiting) (.drain g g.accumulator.waiting)
      rw [haccumulator]
      exact .drain _
    · change _ = Filter.passing ({ f with accumulator := .empty }.started k p) count
      rw [hf, h.started, hcounters]
      rfl

/-- **What is disregarded** is passed or aborts, and the engine is taken if there is none yet. -/
theorem Exit.of_disregards {buffer : Buffer} {r : Reading} {d : Delivery}
    (h : f.Exit k p buffer (.ok d) r g) (hno : f.Disregards (.read (.ok d) buffer)) :
    r.analyses = [] ∧ g = (f.started k p).passing
      (if (Turn.read f (.ok d) buffer r).answered then 1 else 0) := by
  cases h with
  | degraded | overrun | unread | short => exact ⟨rfl, rfl⟩
  | suppressed _ e packet data notices hquiet htakes => exact absurd htakes (hno.not_takes k p e packet)
  | gaveUp _ e packet notices hquiet htakes => exact absurd htakes (hno.not_takes k p e packet)
  | released _ e packet data notices hquiet htakes => exact absurd htakes (hno.not_takes k p e packet)
  | dropped _ e packet notices hdrop htakes => exact absurd htakes (hno.not_takes k p e packet)

/-- **What is disregarded puts the filter further ahead** by the packet that was passed for it, if it was
answered, and by nothing else. -/
theorem Behind.extra (h : Behind k count p f q g) {a : Action} (ha : g.Disregards a) :
    (g.act k q a).1.analyses = [] ∧
      Behind k (count + if (g.act k q a).1.answered then 1 else 0) p f
        (g.act k q a).2.2 (g.act k q a).2.1 := by
  rcases a with ⟨why | d, buffer⟩ | _
  · exact ⟨rfl, h⟩
  · obtain ⟨hanalyses, hafter⟩ := (g.exit_read k q (.ok d) buffer).of_disregards ha
    have hsettled := g.started_settled k q
    have hpool : (g.act k q (.read (.ok d) buffer)).2.2 = (f.start k p).2.2 :=
      (g.pool_read k q d buffer).trans h.pool
    rw [act_read] at hpool ⊢
    obtain ⟨more, hmore⟩ : ∃ more, (if (Turn.read g (.ok d) buffer
      (g.read k q (.ok d) buffer).1).answered then 1 else 0) = more := ⟨_, rfl⟩
    rw [hmore] at hafter ⊢
    -- the filter is settled now, and finds what it has
    have hstage : ((g.started k q).passing more).stage ≠ .uninitialized := hsettled
    refine ⟨hanalyses, ?_, ?_⟩
    · rw [hafter, started_of_settled k _ hstage, h.started, passing_passing]
    · rw [hafter, start_of_settled k _ _ hstage]
      exact hpool
  · cases ha

/-- **A run with more in it stays ahead**, and shows the same. -/
theorem Behind.run {pieces : List Piece} : ∀ {count : Nat} {p q : pool} {f g : Filter engine},
    Behind k count p f q g → Undisturbing k q g pieces →
      List.Forall₂ Turn.Agrees (f.run k p (Piece.owned pieces)).1
          (ownTurns pieces (g.run k q (pieces.map Piece.action)).1) ∧
        (g.run k q (pieces.map Piece.action)).1.flatMap Turn.analyses =
          (f.run k p (Piece.owned pieces)).1.flatMap Turn.analyses ∧
        Behind k (count +
            (extraTurns pieces (g.run k q (pieces.map Piece.action)).1).countP Turn.answered)
          (f.run k p (Piece.owned pieces)).2.2 (f.run k p (Piece.owned pieces)).2.1
          (g.run k q (pieces.map Piece.action)).2.2 (g.run k q (pieces.map Piece.action)).2.1 := by
  induction pieces with
  | nil => exact fun h _ => ⟨.nil, rfl, h⟩
  | cons piece pieces ih =>
    intro count p q f g h hpieces
    cases piece with
    | own a =>
      obtain ⟨hturn, hbehind⟩ := h.act a
      obtain ⟨hturns, hanalyses, hend⟩ := ih hbehind hpieces
      refine ⟨.cons hturn hturns, ?_, hend⟩
      change (g.act k q a).1.analyses ++ _ = (f.act k p a).1.analyses ++ _
      rw [hturn.analyses_eq]
      exact congrArg _ hanalyses
    | extra a =>
      obtain ⟨hnone, hbehind⟩ := h.extra hpieces.1
      obtain ⟨hturns, hanalyses, hend⟩ := ih hbehind hpieces.2
      refine ⟨hturns, ?_, ?_⟩
      · change (g.act k q a).1.analyses ++ _ = _
        rw [hnone]
        exact hanalyses
      · change Behind k (count + ((g.act k q a).1 :: extraTurns pieces _).countP Turn.answered) _ _ _ _
        rw [List.countP_cons, Nat.add_comm (List.countP _ _), ← Nat.add_assoc]
        exact hend

end Run

/-- **Reads that a stream disregards do not disturb it.** Into any run of a filter reads are put, anywhere
and in any number, that fail, claim more than their buffer holds, bring no packet, or bring one that is too
short where nothing waits or may wait. Then

* all actions of the run show the same as without them, with the same bytes in the buffers;
* the same frames go to the engine, in the same order and with the same answers;
* the same bytes wait;
* the counters are the same, but that as many packets more are passed as were answered among those reads.
-/
theorem run_undisturbed (k : Backend pool engine) (p : pool) (f : Filter engine) {pieces : List Piece}
    (hpieces : Undisturbing k p f pieces) :
    List.Forall₂ Turn.Agrees (f.run k p (Piece.owned pieces)).1
        (ownTurns pieces (f.run k p (pieces.map Piece.action)).1) ∧
      (f.run k p (pieces.map Piece.action)).1.flatMap Turn.analyses =
        (f.run k p (Piece.owned pieces)).1.flatMap Turn.analyses ∧
      (f.run k p (pieces.map Piece.action)).2.1.accumulator =
        (f.run k p (Piece.owned pieces)).2.1.accumulator ∧
      (f.run k p (pieces.map Piece.action)).2.1.counters =
        (f.run k p (Piece.owned pieces)).2.1.counters.packetsPass
          ((extraTurns pieces (f.run k p (pieces.map Piece.action)).1).countP Turn.answered) := by
  obtain ⟨hturns, hanalyses, hbehind⟩ := (Behind.of_passing k 0 p f).run hpieces
  obtain ⟨haccumulator, hcounters⟩ := hbehind.fields
  rw [Nat.zero_add] at hcounters
  exact ⟨hturns, hanalyses, haccumulator, hcounters⟩

/-- Two packets of a carrying stream, and before, between and behind them what it has no work with: a
packet that is too short, one with a cut element, an error, a length of nine in a buffer of eight, and
three bytes that are no packet. -/
def strewn : List Piece :=
  [.extra (Incoming.plain 7 (Bytes.zeros 40) 0).action, .extra (.read (.ok ⟨23, []⟩) cutBuffer),
    .own frameAndTen.action, .extra (.read (.error .closed) (.blank 0)),
    .extra (.read (.ok ⟨9, []⟩) (.blank 8)), .own nearlyTwo.action,
    .extra (.read (.ok ⟨3, []⟩) (.blank 8))]

/-- Two packets go through undisturbed, also where the engine is taken for a packet that is too short. -/
theorem run_undisturbed_of_strewn :
    Undisturbing turning 0 (new 1 carrying) strewn ∧
      Piece.owned strewn = [frameAndTen.action, nearlyTwo.action] ∧
      List.Forall₂ Turn.Agrees
        ((new 1 carrying).run turning 0 [frameAndTen.action, nearlyTwo.action]).1
        (ownTurns strewn ((new 1 carrying).run turning 0 (strewn.map Piece.action)).1) ∧
      ((new 1 carrying : Filter Nat).run turning 0 (strewn.map Piece.action)).2.1.accumulator =
        ((new 1 carrying).run turning 0 [frameAndTen.action, nearlyTwo.action]).2.1.accumulator := by
  have hstrewn : Undisturbing turning 0 (new 1 carrying) strewn := by
    refine ⟨?_, ?_, ?_, ?_, ?_, trivial⟩
    · exact .short _ _ _ (Incoming.plain 7 (Bytes.zeros 40) 0).decoded (by decide) (.inr rfl)
    · exact .refused _ _ .overrun (by cbv)
    · exact .failed _ _
    · exact .outsized _ _ (by decide)
    · exact .refused _ _ (.malformed .shortHeader) (by cbv)
  have howned : Piece.owned strewn = [frameAndTen.action, nearlyTwo.action] := rfl
  obtain ⟨hturns, -, haccumulator, -⟩ := run_undisturbed turning 0 (new 1 carrying) hstrewn
  rw [howned] at hturns haccumulator
  exact ⟨hstrewn, howned, hturns, haccumulator⟩

end Filter

end NoiseFilter
