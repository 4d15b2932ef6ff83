import NoiseFilter.Proofs.Stream.Exits
import NoiseFilter.Proofs.Stream.Suppression

/-!
# Runs of a filter

A run is any sequence of reads and drains. The transport's answers and the buffers it left are part of
the run, so a statement about all runs is one about every transport. What an action showed is kept
together with the filter that it met, as a `Filter.Turn`; the prefixes of a run are runs, so that what
holds after every run holds after every step of one.

`Filter.Coherent` is what every reachable filter satisfies: bytes wait only where an engine is at work
and only if they are wanted to. `Filter.coherent_run` proves it once, from what one action does.
-/

namespace NoiseFilter

open Rtp

namespace Filter

variable {pool engine : Type}

/-- What can be done with a filter. -/
inductive Action
  | read (arrival : Arrival) (buffer : Buffer)
  | drain

/-- **One action with what it showed**, and the filter as it was before. -/
inductive Turn (engine : Type)
  | read (before : Filter engine) (arrival : Arrival) (buffer : Buffer) (reading : Reading)
  | drain (before : Filter engine) (bytes : Bytes)

/-- One action. -/
def act (k : Backend pool engine) (p : pool) (f : Filter engine) :
    Action → Turn engine × Filter engine × pool
  | .read arrival buffer =>
    (.read f arrival buffer (f.read k p arrival buffer).1, (f.read k p arrival buffer).2)
  | .drain => (.drain f f.drain.1, f.drain.2, p)

theorem act_read (k : Backend pool engine) (p : pool) (f : Filter engine) (arrival : Arrival)
    (buffer : Buffer) : f.act k p (.read arrival buffer) =
      (.read f arrival buffer (f.read k p arrival buffer).1, (f.read k p arrival buffer).2) := rfl

/-- **Actions in order**: the turns, and the filter and the pool at the end. -/
def run (k : Backend pool engine) (p : pool) (f : Filter engine) :
    List Action → List (Turn engine) × Filter engine × pool
  | [] => ([], f, p)
  | a :: actions =>
    let (turn, g, q) := f.act k p a
    let (turns, h, r) := run k q g actions
    (turn :: turns, h, r)

theorem run_cons (k : Backend pool engine) (p : pool) (f : Filter engine) (a : Action)
    (actions : List Action) :
    f.run k p (a :: actions) =
      ((f.act k p a).1 :: ((f.act k p a).2.1.run k (f.act k p a).2.2 actions).1,
        ((f.act k p a).2.1.run k (f.act k p a).2.2 actions).2) := rfl

theorem run_singleton (k : Backend pool engine) (p : pool) (f : Filter engine) (a : Action) :
    f.run k p [a] = ([(f.act k p a).1], (f.act k p a).2) := rfl

/-- Every action is a turn. -/
theorem length_run (k : Backend pool engine) (actions : List Action) :
    ∀ (p : pool) (f : Filter engine), (f.run k p actions).1.length = actions.length := by
  induction actions with
  | nil => exact fun p f => rfl
  | cons a actions ih => exact fun p f => congrArg (· + 1) (ih _ _)

/-- A run goes on where it stopped. -/
theorem run_append (k : Backend pool engine) (actions actions' : List Action) :
    ∀ (p : pool) (f : Filter engine), f.run k p (actions ++ actions') =
      ((f.run k p actions).1 ++ ((f.run k p actions).2.1.run k (f.run k p actions).2.2 actions').1,
        ((f.run k p actions).2.1.run k (f.run k p actions).2.2 actions').2) := by
  induction actions with
  | nil => exact fun p f => rfl
  | cons a actions ih =>
    intro p f
    rw [List.cons_append, run_cons, ih, run_cons]
    rfl

/-- **What every action preserves holds after every run.** -/
theorem run_preserves {k : Backend pool engine} {P : Filter engine → Prop}
    (hact : ∀ p f a, P f → P (f.act k p a).2.1) (actions : List Action) :
    ∀ p f, P f → P (f.run k p actions).2.1 := by
  induction actions with
  | nil => exact fun p f hf => hf
  | cons a actions ih =>
    intro p f hf
    rw [run_cons]
    exact ih _ _ (hact p f a hf)

/-! ### What every reachable filter satisfies -/

/-- **Bytes wait only behind an engine, and only if they are wanted to.** -/
structure Coherent (f : Filter engine) : Prop where
  idle : (∀ e, f.stage ≠ .active e) → f.accumulator.waiting = []
  flushed : f.settings.carryRemainder = false → f.accumulator.waiting = []

theorem coherent_new (ssrc : UInt32) (settings : Settings) :
    (new ssrc settings : Filter engine).Coherent := ⟨fun _ => rfl, fun _ => rfl⟩

/-- A filter that has nothing waiting is coherent. -/
theorem coherent_of_empty {f : Filter engine} (h : f.accumulator.waiting = []) : f.Coherent :=
  ⟨fun _ => h, fun _ => h⟩

/-- An engine once there stays. -/
theorem started_of_active (k : Backend pool engine) (p : pool) {f : Filter engine} {e : engine}
    (h : f.stage = .active e) : f.started k p = f := by
  rw [started, start, h]

/-- No engine is taken where the stage is settled. -/
theorem started_of_settled (k : Backend pool engine) (p : pool) {f : Filter engine}
    (h : f.stage ≠ .uninitialized) : f.started k p = f := by
  rw [started, start]
  cases hstage : f.stage with
  | uninitialized => exact absurd hstage h
  | active e => rfl
  | degraded => rfl

/-- **A delivery settles the stage.** -/
theorem started_settled (k : Backend pool engine) (p : pool) (f : Filter engine) :
    (f.started k p).stage ≠ .uninitialized := by
  rw [started, start]
  cases hstage : f.stage with
  | uninitialized =>
    rcases k.create p with ⟨e | why, p'⟩ <;>
    · intro h
      cases h
  | active e =>
    intro h
    cases hstage.symm.trans h
  | degraded =>
    intro h
    cases hstage.symm.trans h

/-- A new filter takes the engine that is created for it. -/
theorem stage_started_new (k : Backend pool engine) (p : pool) (ssrc : UInt32) (settings : Settings) :
    ((new ssrc settings).started k p).stage = match (k.create p).1 with
      | .ok e => .active e
      | .error _ => .degraded := by
  rw [started, start, new]
  rcases k.create p with ⟨e | why, q⟩ <;> rfl

/-- What a delivery settles, the stage and the pool, depends on nothing but the stage that it meets. -/
theorem start_congr (k : Backend pool engine) (p : pool) {f g : Filter engine}
    (h : f.stage = g.stage) : (f.started k p).stage = (g.started k p).stage ∧
      (f.start k p).2.2 = (g.start k p).2.2 := by
  rw [started, started, start, start, h]
  cases hstage : g.stage with
  | uninitialized => rcases k.create p with ⟨e | why, q⟩ <;> exact ⟨rfl, rfl⟩
  | active e => exact ⟨h, rfl⟩
  | degraded => exact ⟨h, rfl⟩

theorem coherent_started (k : Backend pool engine) (p : pool) {f : Filter engine} (h : f.Coherent) :
    (f.started k p).Coherent := by
  refine ⟨fun hidle => ?_, fun hcarry => ?_⟩
  · rw [started_accumulator]
    refine h.idle fun e he => ?_
    rw [started_of_active k p he] at hidle
    exact hidle e he
  · rw [started_settings] at hcarry
    rw [started_accumulator]
    exact h.flushed hcarry

/-- Nothing waits where there is no engine to be had. -/
theorem Coherent.waiting_of_degraded {k : Backend pool engine} {p : pool} {f : Filter engine}
    (hf : f.Coherent) (hstage : ∀ e, (f.started k p).stage ≠ .active e) :
    f.accumulator.waiting = [] := by
  have hempty := (coherent_started k p hf).idle hstage
  rwa [started_accumulator] at hempty

/-- Nothing waits in front of a short payload. -/
theorem Coherent.waiting_eq_nil {f : Filter engine} (hf : f.Coherent) {payload : Bytes}
    (h : f.isShort payload = true) : f.accumulator.waiting = [] := by
  rw [isShort, Bool.and_eq_true, Bool.or_eq_true, Bool.not_eq_true'] at h
  rcases h.2 with hcarry | hwaiting
  · exact hf.flushed hcarry
  · exact List.isEmpty_iff.1 hwaiting

/-- Nothing waits in front of a packet that is too short. -/
theorem Coherent.waiting_of_isShort {k : Backend pool engine} {p : pool} {f : Filter engine}
    (hf : f.Coherent) {payload : Bytes} (h : (f.started k p).isShort payload = true) :
    f.accumulator.waiting = [] := by
  have hempty := (coherent_started k p hf).waiting_eq_nil h
  rwa [started_accumulator] at hempty

/-- Behind bytes that wait no payload is short. -/
theorem Coherent.isShort_eq_false {k : Backend pool engine} {p : pool} {f : Filter engine}
    (hf : f.Coherent) {payload : Bytes} (hwaits : f.accumulator.waiting ≠ []) :
    (f.started k p).isShort payload = false := by
  cases hshort : (f.started k p).isShort payload with
  | true => exact absurd (hf.waiting_of_isShort hshort) hwaits
  | false => rfl

/-- **Where bytes wait, every packet is one for the engine.** -/
theorem Coherent.takes (k : Backend pool engine) (p : pool) {f : Filter engine} (hf : f.Coherent)
    {d : Delivery} {buffer : Buffer} {packet : Packet} (hwaits : f.accumulator.waiting ≠ [])
    (hpacket : buffer.packet? d.length = some packet) :
    ∃ e, (f.started k p).Takes e d buffer packet := by
  obtain ⟨e, hstage⟩ : ∃ e, (f.started k p).stage = .active e :=
    Classical.byContradiction fun hnone => hwaits (hf.waiting_of_degraded (not_exists.1 hnone))
  exact ⟨e, hstage, hpacket, hf.isShort_eq_false hwaits⟩

/-- A read leaves a coherent filter coherent. -/
theorem Exit.coherent {k : Backend pool engine} {p : pool} {f g : Filter engine} {buffer : Buffer}
    {arrival : Arrival} {r : Reading} (h : f.Exit k p buffer arrival r g) (hf : f.Coherent) :
    g.Coherent := by
  have hs := coherent_started k p hf
  cases h with
  | failed why => exact hf
  | degraded => exact ⟨hs.idle, hs.flushed⟩
  | overrun => exact hs
  | unread => exact ⟨hs.idle, hs.flushed⟩
  | short => exact ⟨hs.idle, hs.flushed⟩
  -- an engine is there; without carrying, all that was left over went out
  | suppressed d e packet =>
    refine ⟨fun hidle => absurd rfl (hidle _), fun hcarry => ?_⟩
    have hempty := ((f.started k p).suppress_of_flushes k e packet.payload (.inl hcarry)).2
    exact congrArg Accumulator.waiting hempty
  | gaveUp => exact coherent_of_empty rfl
  | released d e packet data notices hquiet htakes hunfit hwaiting =>
    refine ⟨fun hidle => absurd rfl (hidle _), fun hcarry => ?_⟩
    exact absurd (hf.flushed ((started_settings k p f).symm ▸ hcarry)) hwaiting
  | dropped => exact coherent_of_empty rfl

theorem coherent_act (k : Backend pool engine) (p : pool) (f : Filter engine) (a : Action)
    (hf : f.Coherent) : (f.act k p a).2.1.Coherent := by
  cases a with
  | read arrival buffer => exact (f.exit_read k p arrival buffer).coherent hf
  | drain => exact coherent_of_empty rfl

/-- **Every reachable filter is coherent.** -/
theorem coherent_run (k : Backend pool engine) (p : pool) (ssrc : UInt32) (settings : Settings)
    (actions : List Action) : ((new ssrc settings).run k p actions).2.1.Coherent :=
  run_preserves (coherent_act k) actions p _ (coherent_new ssrc settings)

/-! ### What no action changes -/

/-- A read leaves the settings as they were. -/
theorem Exit.settings_eq {k : Backend pool engine} {p : pool} {f g : Filter engine} {buffer : Buffer}
    {arrival : Arrival} {r : Reading} (h : f.Exit k p buffer arrival r g) :
    g.settings = f.settings := by
  cases h with
  | failed => rfl
  | degraded | overrun | unread | short | suppressed | gaveUp | released | dropped =>
    exact started_settings k p f

/-- A read leaves the ssrc as it was. -/
theorem Exit.ssrc_eq {k : Backend pool engine} {p : pool} {f g : Filter engine} {buffer : Buffer}
    {arrival : Arrival} {r : Reading} (h : f.Exit k p buffer arrival r g) : g.ssrc = f.ssrc := by
  cases h with
  | failed => rfl
  | degraded | overrun | unread | short | suppressed | gaveUp | released | dropped =>
    exact started_ssrc k p f

theorem settings_act (k : Backend pool engine) (p : pool) (f : Filter engine) (a : Action) :
    (f.act k p a).2.1.settings = f.settings := by
  cases a with
  | read arrival buffer => exact (f.exit_read k p arrival buffer).settings_eq
  | drain => rfl

/-- **Settings stay what they were.** -/
theorem settings_run (k : Backend pool engine) (p : pool) (f : Filter engine)
    (actions : List Action) : (f.run k p actions).2.1.settings = f.settings :=
  run_preserves (fun q g a hg => (settings_act k q g a).trans hg) actions p f rfl

/-- A filter at the end of a run is coherent, and has the settings that it was made with. -/
theorem coherent_of_run {k : Backend pool engine} {p q : pool} {ssrc : UInt32} {settings : Settings}
    {actions : List Action} {turns : List (Turn engine)} {f : Filter engine}
    (hrun : (new ssrc settings).run k p actions = (turns, f, q)) :
    f.Coherent ∧ f.settings = settings := by
  have hcoherent := coherent_run k p ssrc settings actions
  have hsettings := settings_run k p (new ssrc settings) actions
  rw [hrun] at hcoherent hsettings
  exact ⟨hcoherent, hsettings⟩

end Filter

end NoiseFilter
