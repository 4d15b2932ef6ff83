import NoiseFilter.Proofs.Stream.Conservation

/-!
# What is counted

A filter counts every frame that it puts to its engine, once and by its outcome (`Filter.frames_run`),
and every processed packet that had to be given up. It never counts back: a run at whose end no more
fallbacks are counted than at its start has none in it (`Filter.fallbacks_run_le`).
-/

namespace NoiseFilter

namespace Counters

/-- **The frames counted**, whatever became of them. -/
def frames (c : Counters) : Nat := c.framesVoiced + c.framesAttenuated + c.frameErrors

/-- **The packets counted**, suppressed or passed. -/
def packets (c : Counters) : Nat := c.packetsSuppressed + c.packetsPassed

@[simp] theorem frames_frameVoiced (c : Counters) : c.frameVoiced.frames = c.frames + 1 := by
  simp only [frames, frameVoiced]
  omega

@[simp] theorem frames_frameAttenuated (c : Counters) : c.frameAttenuated.frames = c.frames + 1 := by
  simp only [frames, frameAttenuated]
  omega

@[simp] theorem frames_frameFailed (c : Counters) : c.frameFailed.frames = c.frames + 1 := rfl

@[simp] theorem packets_packetSuppressed (c : Counters) :
    c.packetSuppressed.packets = c.packets + 1 := Nat.add_right_comm _ _ _

end Counters

/-- A frame is counted once. -/
theorem Analysis.frames_count (a : Analysis) (c : Counters) :
    (a.count c).frames = c.frames + 1 := by
  rw [count]
  rcases a.answer with why | ⟨_, _, _ | _⟩
  · exact c.frames_frameFailed
  · exact c.frames_frameAttenuated
  · exact c.frames_frameVoiced

/-- **Every frame is counted once.** -/
theorem Analysis.frames_tally (analyses : List Analysis) (c : Counters) :
    (tally analyses c).frames = c.frames + analyses.length := by
  induction analyses generalizing c with
  | nil => rfl
  | cons a analyses ih =>
    change (tally analyses (a.count c)).frames = _
    rw [ih, a.frames_count, List.length_cons]
    omega

namespace Filter

variable {pool engine : Type}

/-- Frames are counted, and nothing else, where a payload is put to the engine. -/
theorem counters_analysed (k : Backend pool engine) (p : pool) (f : Filter engine) (e : engine)
    (payload : Bytes) :
    ((f.started k p).analysed k e payload).counters.frames =
        f.counters.frames + ((f.started k p).suppress k e payload).analyses.length ∧
      ((f.started k p).analysed k e payload).counters.packets = f.counters.packets ∧
      ((f.started k p).analysed k e payload).counters.fallbacks = f.counters.fallbacks := by
  obtain ⟨hsuppressed, hpassed, hfallbacks⟩ :=
    Analysis.packets_tally ((f.started k p).suppress k e payload).analyses f.counters
  rw [analysed, started_counters]
  refine ⟨Analysis.frames_tally _ _, ?_, hfallbacks⟩
  rw [Counters.packets, hsuppressed, hpassed]
  rfl

/-- **A fallback is counted.** -/
theorem fallbacks_fallenBack_ne (k : Backend pool engine) (p : pool) (f : Filter engine) (e : engine)
    (payload waiting : Bytes) :
    (((f.started k p).analysed k e payload).fallenBack waiting).counters.fallbacks ≠
      f.counters.fallbacks := by
  change ((f.started k p).analysed k e payload).counters.fallbacks + 1 ≠ _
  rw [(f.counters_analysed k p e payload).2.2]
  exact Nat.succ_ne_self _

/-- **What a read counts**: every frame that it puts to the engine, and never back. -/
theorem Exit.counts {k : Backend pool engine} {p : pool} {f g : Filter engine} {buffer : Buffer}
    {arrival : Arrival} {r : Reading} (h : f.Exit k p buffer arrival r g) :
    g.counters.frames = f.counters.frames + r.analyses.length ∧
      f.counters.fallbacks ≤ g.counters.fallbacks := by
  have hstarted := started_counters k p f
  cases h with
  | failed why => exact ⟨rfl, Nat.le_refl _⟩
  | overrun =>
    rw [hstarted]
    exact ⟨rfl, Nat.le_refl _⟩
  | degraded | unread | short =>
    rw [passed, hstarted]
    exact ⟨rfl, Nat.le_refl _⟩
  | suppressed d e packet =>
    obtain ⟨hframes, -, hfallbacks⟩ := f.counters_analysed k p e packet.payload
    exact ⟨hframes, Nat.le_of_eq hfallbacks.symm⟩
  | gaveUp d e packet | released d e packet | dropped d e packet =>
    obtain ⟨hframes, -, hfallbacks⟩ := f.counters_analysed k p e packet.payload
    exact ⟨hframes, Nat.le_trans (Nat.le_of_eq hfallbacks.symm) (Nat.le_succ _)⟩

/-- What an action counts. -/
theorem counts_act (k : Backend pool engine) (p : pool) (f : Filter engine) (a : Action) :
    (f.act k p a).2.1.counters.frames = f.counters.frames + (f.act k p a).1.analyses.length ∧
      f.counters.fallbacks ≤ (f.act k p a).2.1.counters.fallbacks := by
  cases a with
  | read arrival buffer => exact (f.exit_read k p arrival buffer).counts
  | drain => exact ⟨rfl, Nat.le_refl _⟩

/-- **The frames counted in a run** are those that were put to the engine. -/
theorem frames_run (k : Backend pool engine) (actions : List Action) :
    ∀ (p : pool) (f : Filter engine), (f.run k p actions).2.1.counters.frames =
      f.counters.frames + ((f.run k p actions).1.flatMap Turn.analyses).length := by
  induction actions with
  | nil => exact fun p f => rfl
  | cons a actions ih =>
    intro p f
    rw [run_cons, List.flatMap_cons, List.length_append, ← Nat.add_assoc, ← (counts_act k p f a).1]
    exact ih _ _

/-- **No run counts back.** -/
theorem fallbacks_run_le (k : Backend pool engine) (actions : List Action) :
    ∀ (p : pool) (f : Filter engine),
      f.counters.fallbacks ≤ (f.run k p actions).2.1.counters.fallbacks := by
  induction actions with
  | nil => exact fun p f => Nat.le_refl _
  | cons a actions ih =>
    intro p f
    rw [run_cons]
    exact Nat.le_trans (counts_act k p f a).2 (ih _ _)

/-- A run without a fallback begins without one, and goes on without one. -/
theorem fallbacks_of_run_cons (k : Backend pool engine) {p : pool} {f : Filter engine} {a : Action}
    {actions : List Action}
    (hnone : (f.run k p (a :: actions)).2.1.counters.fallbacks = f.counters.fallbacks) :
    (f.act k p a).2.1.counters.fallbacks = f.counters.fallbacks ∧
      ((f.act k p a).2.1.run k (f.act k p a).2.2 actions).2.1.counters.fallbacks =
        (f.act k p a).2.1.counters.fallbacks := by
  rw [run_cons] at hnone
  have hfirst : (f.act k p a).2.1.counters.fallbacks = f.counters.fallbacks := by
    refine Nat.le_antisymm ?_ (counts_act k p f a).2
    rw [← hnone]
    exact fallbacks_run_le k _ _ _
  exact ⟨hfirst, hnone.trans hfirst.symm⟩

end Filter

end NoiseFilter
