import NoiseFilter.Proofs.Stream.Run
import NoiseFilter.Stream.Hub

/-!
# The life of a stream's engine

A filter has no engine until something arrives. The first delivery takes one from the pool, before a
single byte is looked at, and what becomes of that attempt is final: `Filter.run_lifecycle` says that no
later read tries again, and that nothing in a run moves the status of a stream but its first delivery.

| the attempt | the status | the reads from then on |
|---|---|---|
| has not been made | uninitialized | fail, as all before them |
| gave an engine | active | work, whatever the engine does |
| failed | degraded | hand everything on as it arrived |

How often a pool was asked is not to be seen in what a filter does, nor in most pools. So a run is
compared with the run out of a pool that **counts** (`Backend.counted`), which differs from it in the
count alone.
-/

namespace NoiseFilter

open Rtp

variable {pool engine : Type}

/-- **How far the life of a stream's engine has come.** -/
inductive Status
  | uninitialized
  | active
  | degraded
deriving DecidableEq, Repr

/-- The status of a stage, whatever the engine is. -/
def Stage.status : Stage engine → Status
  | uninitialized => .uninitialized
  | active _ => .active
  | degraded => .degraded

/-- The status that the attempt to take an engine ends in. -/
def Status.ofCreation : Except Failure engine → Status
  | .ok _ => .active
  | .error _ => .degraded

/-- So many packets more, all passed. -/
def Counters.packetsPass (c : Counters) (count : Nat) : Counters :=
  { c with packetsPassed := c.packetsPassed + count }

theorem Counters.packetsPass_add (c : Counters) (count count' : Nat) :
    c.packetsPass (count + count') = (c.packetsPass count).packetsPass count' := by
  simp only [packetsPass, Nat.add_assoc]

theorem Stage.status_eq_active {stage : Stage engine} :
    stage.status = .active ↔ ∃ e, stage = .active e := by
  cases stage <;> simp [status]

theorem Stage.status_eq_uninitialized {stage : Stage engine} :
    stage.status = .uninitialized ↔ stage = .uninitialized := by
  cases stage <;> simp [status]

/-- **The same engines, out of a pool that counts** how many were asked for. -/
def Backend.counted (k : Backend pool engine) : Backend (Nat × pool) engine where
  create p := ((k.create p.2).1, p.1 + 1, (k.create p.2).2)
  process := k.process

namespace Filter

/-- Something arrives. -/
def Action.arrives : Action → Bool
  | .read (.ok _) _ => true
  | _ => false

/-- **A turn that changes nothing**: a delivery is handed on with its length, its attributes and all
bytes of the buffer as they were, an error as it is, and nothing is put to an engine or was waiting. -/
def Turn.Transparent : Turn engine → Prop
  | read _ (.ok d) buffer r => r.outcome = .delivered d ∧ r.buffer = buffer ∧ r.analyses = []
  | read _ (.error why) buffer r => r.outcome = .failed why ∧ r.buffer = buffer ∧ r.analyses = []
  | drain _ bytes => bytes = []

/-! ### One action -/

section Act

variable (k : Backend pool engine) (p : pool) (f : Filter engine)

/-- The attempt to take an engine settles the status. -/
theorem status_started_of_uninitialized (h : f.stage = .uninitialized) :
    (f.started k p).stage.status = .ofCreation (k.create p).1 ∧
      (f.start k p).2.2 = (k.create p).2 := by
  rw [started, start, h]
  rcases k.create p with ⟨e | why, q⟩ <;> exact ⟨rfl, rfl⟩

/-- A read takes from the pool what starting the filter takes, and no more. -/
theorem pool_read (d : Delivery) (buffer : Buffer) :
    (f.read k p (.ok d) buffer).2.2 = (f.start k p).2.2 := by
  rcases hstart : f.start k p with ⟨notices, g, q⟩
  simp only [read, hstart]

variable {k p f} in
/-- **A read ends in the status that it begins its work in**, whatever the engine and the packet do. -/
theorem Exit.status_eq {g : Filter engine} {buffer : Buffer} {d : Delivery} {r : Reading}
    (h : f.Exit k p buffer (.ok d) r g) : g.stage.status = (f.started k p).stage.status := by
  cases h with
  | degraded | overrun | unread | short => rfl
  | suppressed _ e packet data notices hquiet htakes => rw [htakes.stage]; rfl
  | gaveUp _ e packet notices hquiet htakes => rw [htakes.stage]; rfl
  | released _ e packet data notices hquiet htakes => rw [htakes.stage]; rfl
  | dropped _ e packet notices hdrop htakes => rw [htakes.stage]; rfl

/-- **What arrives starts the filter**: the status and the pool afterwards. -/
theorem settles_of_arrives {a : Action} (h : a.arrives = true) :
    (f.act k p a).2.1.stage.status = (f.started k p).stage.status ∧
      (f.act k p a).2.2 = (f.start k p).2.2 := by
  rcases a with ⟨why | d, buffer⟩ | _
  · cases h
  · exact ⟨(f.exit_read k p (.ok d) buffer).status_eq, f.pool_read k p d buffer⟩
  · cases h

/-- What does not arrive leaves stage and pool alone. -/
theorem stage_act_of_not_arrives {a : Action} (h : a.arrives = false) :
    (f.act k p a).2.1.stage = f.stage ∧ (f.act k p a).2.2 = p := by
  rcases a with ⟨why | d, buffer⟩ | _
  · exact ⟨rfl, rfl⟩
  · cases h
  · exact ⟨rfl, rfl⟩

/-- A filter that is settled takes nothing from the pool. -/
theorem start_of_settled (h : f.stage ≠ .uninitialized) : (f.start k p).2.2 = p := by
  rw [start]
  cases hstage : f.stage with
  | uninitialized => exact absurd hstage h
  | active e => rfl
  | degraded => rfl

/-- **No action changes what the next delivery will find**: the status that it starts the filter in, and
what it leaves in the pool. -/
theorem started_act (a : Action) :
    ((f.act k p a).2.1.started k (f.act k p a).2.2).stage.status =
        (f.started k p).stage.status ∧
      ((f.act k p a).2.1.start k (f.act k p a).2.2).2.2 = (f.start k p).2.2 := by
  cases h : a.arrives with
  | false =>
    obtain ⟨hstage, hpool⟩ := stage_act_of_not_arrives k p f h
    obtain ⟨hstarted, hstart⟩ := start_congr k p hstage
    rw [hpool, hstarted, hstart]
    exact ⟨rfl, rfl⟩
  | true =>
    obtain ⟨hstatus, hpool⟩ := settles_of_arrives k p f h
    -- the engine was taken now, if not before
    have hsettled : (f.act k p a).2.1.stage ≠ .uninitialized := by
      intro hnone
      rw [hnone] at hstatus
      exact f.started_settled k p (Stage.status_eq_uninitialized.1 hstatus.symm)
    rw [started_of_settled k _ hsettled, start_of_settled k _ _ hsettled]
    exact ⟨hstatus, hpool⟩

end Act

/-! ### A run -/

/-- **The status after a run, and the pool.** Both are what they were, or what the first delivery has made
of them. -/
theorem status_run (k : Backend pool engine) (actions : List Action) :
    ∀ (p : pool) (f : Filter engine),
      (f.run k p actions).2.1.stage.status =
          (if actions.any Action.arrives then (f.started k p).stage.status else f.stage.status) ∧
        (f.run k p actions).2.2 =
          (if actions.any Action.arrives then (f.start k p).2.2 else p) := by
  induction actions with
  | nil => exact fun p f => ⟨rfl, rfl⟩
  | cons a actions ih =>
    intro p f
    obtain ⟨hstatus, hpool⟩ := ih (f.act k p a).2.2 (f.act k p a).2.1
    obtain ⟨hstarted, hstart⟩ := f.started_act k p a
    rw [run_cons, hstatus, hpool, hstarted, hstart, List.any_cons]
    cases h : a.arrives with
    | false =>
      obtain ⟨hstage, hsame⟩ := f.stage_act_of_not_arrives k p h
      rw [hstage, hsame, Bool.false_or]
      exact ⟨rfl, rfl⟩
    | true =>
      obtain ⟨hstatus', hpool'⟩ := f.settles_of_arrives k p h
      rw [hstatus', hpool', ite_self, ite_self, Bool.true_or]
      exact ⟨rfl, rfl⟩

/-- **The first attempt decides**: a filter that has no engine yet ends in the status of that attempt, once
something has arrived. -/
theorem status_run_of_uninitialized (k : Backend pool engine) (p : pool) {f : Filter engine}
    (h : f.stage = .uninitialized) (actions : List Action) :
    (f.run k p actions).2.1.stage.status =
      (if actions.any Action.arrives then .ofCreation (k.create p).1 else .uninitialized) := by
  rw [(f.status_run k actions p).1, (f.status_started_of_uninitialized k p h).1, h]
  rfl

/-- **Without an engine nothing is changed**, and nothing is counted but packets that pass. -/
theorem run_of_degraded (k : Backend pool engine) (actions : List Action) :
    ∀ (p : pool) {f : Filter engine}, (∀ e, (f.started k p).stage ≠ .active e) →
      f.accumulator.waiting = [] →
      (∀ t ∈ (f.run k p actions).1, t.Transparent) ∧
        (f.run k p actions).2.1.accumulator.waiting = [] ∧
        (f.run k p actions).2.1.counters =
          f.counters.packetsPass (actions.countP Action.arrives) := by
  induction actions with
  | nil => exact fun p f _ hwaiting => ⟨fun t ht => absurd ht List.not_mem_nil, hwaiting, rfl⟩
  | cons a actions ih =>
    intro p f hstage hwaiting
    have hnone : ∀ e, ((f.act k p a).2.1.started k (f.act k p a).2.2).stage ≠ .active e := by
      intro e he
      have hstatus := (f.started_act k p a).1
      rw [he] at hstatus
      obtain ⟨e', he'⟩ := Stage.status_eq_active.1 hstatus.symm
      exact hstage e' he'
    obtain ⟨hone, hempty, hcounted⟩ : (f.act k p a).1.Transparent ∧
        (f.act k p a).2.1.accumulator.waiting = [] ∧
        (f.act k p a).2.1.counters = f.counters.packetsPass ([a].countP Action.arrives) := by
      rcases a with ⟨why | d, buffer⟩ | _
      · exact ⟨⟨rfl, rfl, rfl⟩, hwaiting, rfl⟩
      · rw [act_read, read_of_degraded k p hstage]
        refine ⟨⟨rfl, rfl, rfl⟩, ?_, ?_⟩
        · change (f.started k p).accumulator.waiting = []
          rw [started_accumulator]
          exact hwaiting
        · change (f.started k p).counters.packetPassed = _
          rw [started_counters]
          rfl
      · exact ⟨hwaiting, rfl, rfl⟩
    obtain ⟨hrest, hempty', hcounted'⟩ := ih _ hnone hempty
    rw [run_cons]
    refine ⟨List.forall_mem_cons.2 ⟨hone, hrest⟩, hempty', ?_⟩
    change _ = f.counters.packetsPass (([a] ++ actions).countP Action.arrives)
    rw [hcounted', hcounted, List.countP_append, Counters.packetsPass_add]

/-! ### Engines out of another pool -/

section Congr

variable {pool' : Type} {k : Backend pool engine} {k' : Backend pool' engine}
  (hprocess : k'.process = k.process)

include hprocess

/-- Engines that work alike make the same of frames. -/
theorem analyse_congr (threshold : Binary.Single) (frames : List WireFrame) :
    ∀ e, k'.analyse threshold e frames = k.analyse threshold e frames := by
  induction frames with
  | nil => exact fun e => rfl
  | cons frame frames ih =>
    intro e
    rw [k'.analyse_cons, k.analyse_cons, hprocess, ih]

/-- **What is done with a delivery has nothing to do with the pool.** -/
theorem receive_congr (f : Filter engine) (e : engine) (d : Delivery) (buffer : Buffer) :
    f.receive k' e d buffer = f.receive k e d buffer := by
  have hsuppress : ∀ payload, f.suppress k' e payload = f.suppress k e payload := by
    intro payload
    rw [suppress, suppress]
    simp only [analyse_congr hprocess]
  have hrest : ∀ packet, f.process k' e packet d buffer = f.process k e packet d buffer := by
    intro packet
    rw [process, process, hsuppress]
  simp only [receive, hrest]

/-- **A delivery depends on the pool by the engine that it takes**, and on no pool if it takes none. -/
theorem read_congr {p : pool} {p' : pool'} {f : Filter engine}
    (hcreate : f.stage = .uninitialized → (k'.create p').1 = (k.create p).1) (d : Delivery)
    (buffer : Buffer) :
    (f.read k' p' (.ok d) buffer).1 = (f.read k p (.ok d) buffer).1 ∧
      (f.read k' p' (.ok d) buffer).2.1 = (f.read k p (.ok d) buffer).2.1 := by
  obtain ⟨hnotices, hstarted⟩ : (f.start k' p').1 = (f.start k p).1 ∧
      (f.start k' p').2.1 = (f.start k p).2.1 := by
    rw [start, start]
    cases hstage : f.stage with
    | uninitialized =>
      have hsame := hcreate hstage
      rcases hcreated : k.create p with ⟨outcome, q⟩
      rcases hcreated' : k'.create p' with ⟨outcome', q'⟩
      rw [hcreated, hcreated'] at hsame
      dsimp only at hsame ⊢
      subst hsame
      cases outcome' <;> exact ⟨rfl, rfl⟩
    | active e => exact ⟨rfl, rfl⟩
    | degraded => exact ⟨rfl, rfl⟩
  rcases hstart : f.start k p with ⟨notices, g, q⟩
  rcases hstart' : f.start k' p' with ⟨notices', g', q'⟩
  rw [hstart, hstart'] at hnotices hstarted
  dsimp only at hnotices hstarted
  subst hnotices hstarted
  rw [read, read, hstart, hstart']
  cases hstage : g'.stage with
  | active e => simp only [hstage, receive_congr hprocess, and_self]
  | uninitialized => simp only [hstage, and_self]
  | degraded => simp only [hstage, and_self]

end Congr

/-! ### Counting what is taken -/

section Counted

variable (k : Backend pool engine)

/-- **A pool that counts changes nothing** in what an action shows and leaves. -/
theorem act_counted (n : Nat) (p : pool) (f : Filter engine) (a : Action) :
    (f.act k.counted (n, p) a).1 = (f.act k p a).1 ∧
      (f.act k.counted (n, p) a).2.1 = (f.act k p a).2.1 ∧
      (f.act k.counted (n, p) a).2.2.2 = (f.act k p a).2.2 := by
  rcases a with ⟨why | d, buffer⟩ | _
  · exact ⟨rfl, rfl, rfl⟩
  · have hprocess : k.counted.process = k.process := rfl
    obtain ⟨hreading, hfilter⟩ : (f.read k.counted (n, p) (.ok d) buffer).1 =
          (f.read k p (.ok d) buffer).1 ∧
        (f.read k.counted (n, p) (.ok d) buffer).2.1 = (f.read k p (.ok d) buffer).2.1 :=
      read_congr hprocess (fun _ => rfl) d buffer
    refine ⟨?_, hfilter, ?_⟩
    · rw [act_read, act_read, hreading]
    · rw [act_read, act_read, pool_read, pool_read, start, start]
      cases f.stage with
      | uninitialized => simp only [Backend.counted]; rcases k.create p with ⟨e | why, q⟩ <;> rfl
      | active e => rfl
      | degraded => rfl
  · exact ⟨rfl, rfl, rfl⟩

/-- A pool that counts changes nothing in a run. -/
theorem run_counted (actions : List Action) : ∀ (n : Nat) (p : pool) (f : Filter engine),
    (f.run k.counted (n, p) actions).1 = (f.run k p actions).1 ∧
      (f.run k.counted (n, p) actions).2.1 = (f.run k p actions).2.1 ∧
      (f.run k.counted (n, p) actions).2.2.2 = (f.run k p actions).2.2 := by
  induction actions with
  | nil => exact fun n p f => ⟨rfl, rfl, rfl⟩
  | cons a actions ih =>
    intro n p f
    obtain ⟨hturn, hfilter, hpool⟩ := act_counted k n p f a
    rcases hact : f.act k.counted (n, p) a with ⟨turn, g, m, q⟩
    rw [hact] at hturn hfilter hpool
    obtain ⟨hturns, hrest⟩ := ih m q g
    rw [run_cons, run_cons, hact]
    dsimp only at hturn hfilter hpool ⊢
    rw [← hturn, ← hfilter, ← hpool, hturns]
    exact ⟨rfl, hrest⟩

variable {k} in
/-- **How often an engine was asked for**: once if anything has arrived, and never otherwise. -/
theorem run_counted_of_uninitialized (p : pool) {f : Filter engine} (h : f.stage = .uninitialized)
    (actions : List Action) :
    f.run k.counted (0, p) actions =
      ((f.run k p actions).1, (f.run k p actions).2.1,
        (if actions.any Action.arrives then 1 else 0), (f.run k p actions).2.2) := by
  obtain ⟨hturns, hfilter, hpool⟩ := run_counted k actions 0 p f
  have hcount := (f.status_run k.counted actions (0, p)).2
  rw [(f.status_started_of_uninitialized k.counted (0, p) h).2] at hcount
  rcases hrun : f.run k.counted (0, p) actions with ⟨turns, g, n, q⟩
  rw [hrun] at hturns hfilter hpool hcount
  obtain rfl : n = if actions.any Action.arrives then 1 else 0 := by
    cases harrived : actions.any Action.arrives with
    | false =>
      rw [harrived] at hcount
      exact (Prod.mk.inj hcount).1
    | true =>
      rw [harrived] at hcount
      exact (Prod.mk.inj hcount).1
  dsimp only at hturns hfilter hpool
  rw [hturns, hfilter, hpool]

end Counted

end Filter

/-! ### Binding -/

namespace Hub

/-- **A name leads to the stream that was put there last.** -/
theorem stream?_insert (h : Hub pool engine) (name : String) (s : Stream engine) :
    (h.insert name s).stream? name = some s := by
  rw [stream?, insert, List.lookup_cons, beq_self_eq_true]

/-- **Binding begins anew**: a name that is bound leads to a filter at the start of its life, whatever it
led to before. -/
theorem filter?_bind (k : Backend pool engine) (h : Hub pool engine) (binder : Nat) (name : String)
    (info : StreamInfo) {f : Filter engine}
    (hbound : ((h.step k (.bind binder name info)).2.stream? name).bind Stream.filter? = some f) :
    f.stage.status = .uninitialized ∧ f.accumulator.waiting = [] ∧ f.counters = .zero := by
  rw [step, stream?_insert, Option.bind_some, Stream.bind] at hbound
  cases hroute : info.route h.settings with
  | suppress =>
    rw [hroute] at hbound
    cases hbound
    exact ⟨rfl, rfl, rfl⟩
  | passThrough =>
    rw [hroute] at hbound
    cases hbound

end Hub

namespace Filter

/-- **The life of a stream's engine.** In every run of a filter, out of every pool,

* an engine is asked for at most once, and exactly once if anything arrived: the pool that counts says
  so, and differs from any other in nothing else;
* the status after the run is that of the first attempt, once something has arrived;
* so it never changes again, whatever follows;
* if the attempt failed, nothing in the run was changed, no engine was asked, nothing waits, and as many
  packets are counted as passed as have arrived;
* a name that is bound once more leads to a filter at the start of its life.
-/
theorem run_lifecycle (k : Backend pool engine) (p : pool) (ssrc : UInt32) (settings : Settings)
    (actions : List Action) :
    (new ssrc settings).run k.counted (0, p) actions =
        (((new ssrc settings).run k p actions).1, ((new ssrc settings).run k p actions).2.1,
          (if actions.any Action.arrives then 1 else 0),
          ((new ssrc settings).run k p actions).2.2) ∧
      ((new ssrc settings).run k p actions).2.1.stage.status =
        (if actions.any Action.arrives then .ofCreation (k.create p).1 else .uninitialized) ∧
      (∀ more, ((new ssrc settings).run k p actions).2.1.stage.status ≠ .uninitialized →
        ((new ssrc settings).run k p (actions ++ more)).2.1.stage.status =
          ((new ssrc settings).run k p actions).2.1.stage.status) ∧
      (((new ssrc settings).run k p actions).2.1.stage.status = .degraded →
        (∀ t ∈ ((new ssrc settings).run k p actions).1, t.Transparent) ∧
          ((new ssrc settings).run k p actions).2.1.accumulator.waiting = [] ∧
          ((new ssrc settings).run k p actions).2.1.counters =
            Counters.zero.packetsPass (actions.countP Action.arrives)) ∧
      ∀ (h : Hub pool engine) binder name info (f : Filter engine),
        ((h.step k (.bind binder name info)).2.stream? name).bind Stream.filter? = some f →
          f.stage.status = .uninitialized ∧ f.accumulator.waiting = [] ∧ f.counters = .zero := by
  have hstatus := status_run_of_uninitialized k p (f := new ssrc settings) rfl
  refine ⟨run_counted_of_uninitialized p rfl actions, hstatus actions, fun more hsettled => ?_,
    fun hdegraded => ?_, fun h binder name info f => h.filter?_bind k binder name info⟩
  · rw [hstatus] at hsettled ⊢
    rw [hstatus, List.any_append]
    cases harrived : actions.any Action.arrives with
    | false =>
      rw [harrived] at hsettled
      exact absurd rfl hsettled
    | true => rfl
  · -- the attempt was made, and there was no engine to be had
    have hnone : ∀ e, ((new ssrc settings).started k p).stage ≠ .active e := by
      intro e he
      have hactive := congrArg Stage.status he
      rw [(status_started_of_uninitialized k p (new ssrc settings) rfl).1] at hactive
      rw [hstatus, hactive] at hdegraded
      split at hdegraded <;> cases hdegraded
    exact run_of_degraded k actions p hnone rfl

end Filter

end NoiseFilter
